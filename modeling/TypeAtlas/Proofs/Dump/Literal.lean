import TypeAtlas.Proofs.Dump.Piece

namespace TypeAtlas.Dump

open Text

def isQuote (c : Char) : Bool :=
  c == '\x22' || c == '\x27'

-- The byte offset behind the literal that the quote at a byte offset begins.
def literalEnd? (text : List Char) (offset : Nat) : Option Nat :=
  match dropBytes? offset text with
  | some (c :: rest) =>
    if isQuote c then some (offset + c.utf8Size + byteSize (cutLiteral c rest).1) else none
  | _ => none

-- The byte offset of the first line break from a byte offset on, or that of the end of the text.
def lineEnd? (text : List Char) (offset : Nat) : Option Nat :=
  (dropBytes? offset text).map fun rest => offset + byteSize (rest.takeWhile (· != '\n'))

-- That a literal ends no later than the line it begins on.
def Confined (text : List Char) (offset : Nat) : Prop :=
  ∃ stop last, literalEnd? text offset = some stop ∧ lineEnd? text offset = some last ∧ stop ≤ last

-- Characters of a literal behind its quote that leave it open.
inductive Inside (quote : Char) : List Char → Prop
  | nil : Inside quote []
  | plain {c : Char} {rest : List Char} :
      c ≠ '\\' → c ≠ '\n' → c ≠ quote → Inside quote rest → Inside quote (c :: rest)
  | escaped (c : Char) {rest : List Char} : Inside quote rest → Inside quote ('\\' :: c :: rest)

theorem ne_of_isQuote {quote c : Char} (hquote : isQuote quote = true) (hc : isQuote c = false) :
    quote ≠ c := by
  rintro rfl
  rw [hquote] at hc
  cases hc

section

variable {quote : Char} (hquote : isQuote quote = true)
include hquote

-- A literal has a line break of its own only behind a backslash.
theorem break_mem_cutLiteral_iff {text : List Char} :
    '\n' ∈ (cutLiteral quote text).1 ↔
      ∃ inside below, Inside quote inside ∧ text = inside ++ '\\' :: '\n' :: below := by
  have hbreak : quote ≠ '\n' := ne_of_isQuote hquote rfl
  constructor
  · intro hmem
    fun_induction cutLiteral quote text with
    | case1 => cases hmem
    | case2 c rest ih =>
        simp only [List.mem_cons] at hmem
        rcases hmem with h | rfl | hmem
        · cases h
        · exact ⟨[], rest, .nil, rfl⟩
        · obtain ⟨inside, below, hinside, rfl⟩ := ih hmem
          exact ⟨'\\' :: c :: inside, below, .escaped c hinside, rfl⟩
    | case3 => cases hmem
    | case4 => exact absurd (List.mem_singleton.mp hmem).symm hbreak
    | case5 c rest hescape hc hend ih =>
        rcases List.mem_cons.mp hmem with h | hmem
        · exact absurd h.symm hc
        · obtain ⟨inside, below, hinside, rfl⟩ := ih hmem
          have hc' : c ≠ '\\' := by
            rintro rfl
            cases hinside with
            | nil => exact hescape _ _ rfl rfl
            | plain => exact hescape _ _ rfl rfl
            | escaped => exact hescape _ _ rfl rfl
          exact ⟨c :: inside, below, .plain hc' hc hend hinside, rfl⟩
  · rintro ⟨inside, below, hinside, rfl⟩
    induction hinside with
    | nil => simp [cutLiteral]
    | @plain c rest hescape hc hend _ ih =>
        rw [List.cons_append, cutLiteral, if_neg hc, if_neg hend]
        · exact List.mem_cons_of_mem _ ih
        · exact fun _ _ h => absurd h hescape
    | escaped c _ ih =>
        rw [List.cons_append, List.cons_append, cutLiteral]
        exact List.mem_cons_of_mem _ (List.mem_cons_of_mem _ ih)

-- The braces of a literal do not count. It leaves off within itself only before a line break or at
-- the end of the text.
theorem within?_cutLiteral (depth : Nat) (text : List Char) :
    ∃ mode, within? (.literal quote) depth (cutLiteral quote text).1 = some (mode, depth) ∧
      (mode = .code ∨ (cutLiteral quote text).2 = [] ∨
        mode = .literal quote ∧ ∃ below, (cutLiteral quote text).2 = '\n' :: below) := by
  have hbackslash : quote ≠ '\\' := ne_of_isQuote hquote rfl
  fun_induction cutLiteral quote text with
  | case1 => exact ⟨.literal quote, rfl, .inr (.inl rfl)⟩
  | case2 c rest ih =>
      obtain ⟨mode, hwithin, hends⟩ := ih
      have hnext : (Mode.literal quote).next '\\' = .escape quote := by simp only [Mode.next, if_true]
      refine ⟨mode, ?_, hends⟩
      rw [within?_of_no_brace rfl, hnext, within?_of_no_brace rfl]
      exact hwithin
  | case3 rest => exact ⟨.literal quote, rfl, .inr (.inr ⟨rfl, rest, rfl⟩)⟩
  | case4 =>
      have hnext : (Mode.literal quote).next quote = .code := by
        rw [Mode.next, if_neg hbackslash, if_pos (by simp)]
      refine ⟨.code, ?_, .inl rfl⟩
      rw [within?_of_no_brace rfl, hnext]
      rfl
  | case5 c rest hescape hc hend ih =>
      by_cases hc' : c = '\\'
      · -- a backslash that ends the text
        cases rest with
        | nil => exact ⟨_, within?_of_no_brace rfl _ _, .inr (.inl rfl)⟩
        | cons d rest => exact (hescape d rest hc' rfl).elim
      · obtain ⟨mode, hwithin, hends⟩ := ih
        have hnext : (Mode.literal quote).next c = .literal quote := by
          simp [Mode.next, hc', hc, hend]
        refine ⟨mode, ?_, hends⟩
        rw [within?_of_no_brace rfl, hnext]
        exact hwithin

theorem next_of_isQuote {mode : Mode} (hmode : mode.isCode = true) :
    mode.brace? quote = none ∧ mode.next quote = .literal quote := by
  have hslash : quote ≠ '/' := ne_of_isQuote hquote rfl
  have hstar : quote ≠ '*' := ne_of_isQuote hquote rfl
  have hopening : quote ≠ '{' := ne_of_isQuote hquote rfl
  have hclosing : quote ≠ '}' := ne_of_isQuote hquote rfl
  simp only [isQuote, Bool.or_eq_true, beq_iff_eq] at hquote
  refine ⟨by simp [Mode.brace?, hopening, hclosing], ?_⟩
  cases mode with
  | code => simp [Mode.next, Mode.afterCode, hslash, hquote]
  | slash => simp [Mode.next, Mode.afterCode, hslash, hstar, hquote]
  | _ => cases hmode

-- A block that a literal stands in ends where it ends in what follows the literal.
theorem enclosedFrom_literal {mode : Mode} (hmode : mode.isCode = true) (depth : Nat)
    (text : List Char) :
    enclosedFrom mode depth [] (quote :: text) =
      (enclosedFrom .code depth [] (cutLiteral quote text).2).map fun block =>
        (quote :: (cutLiteral quote text).1 ++ block.1, block.2) := by
  obtain ⟨hbrace, hnext⟩ := next_of_isQuote hquote hmode
  obtain ⟨ended, hwithin, hends⟩ := within?_cutLiteral hquote depth text
  have hbehind : enclosedFrom ended depth [] (cutLiteral quote text).2 =
      enclosedFrom .code depth [] (cutLiteral quote text).2 := by
    rcases hends with rfl | hnil | ⟨rfl, below, hbelow⟩
    · rfl
    · rw [hnil]
      rfl
    · rw [hbelow, enclosedFrom_of_no_brace rfl, enclosedFrom_of_no_brace rfl]
      rfl
  rw [enclosedFrom_of_no_brace hbrace, hnext]
  conv_lhs => rw [← cutLiteral_append quote text]
  rw [enclosedFrom_of_within? hwithin, hbehind, Option.map_map]
  rfl

theorem nested_literal {mode : Mode} (hmode : mode.isCode = true) (n : Int) (text : List Char) :
    (nested (mode, n) (quote :: text)).2 = (nested (.code, n) (cutLiteral quote text).2).2 := by
  obtain ⟨hbrace, hnext⟩ := next_of_isQuote hquote hmode
  obtain ⟨ended, hwithin, hends⟩ := within?_cutLiteral hquote 0 text
  have hstart : nested (mode, n) (quote :: text) = nested (.literal quote, n) text := by
    simp [nested, hbrace, hnext, Brace.step]
  have hliteral : nested (.literal quote, n) (cutLiteral quote text).1 = (ended, n) := by
    rw [nested_of_within? hwithin]
    simp
  rw [hstart]
  conv_lhs => rw [← cutLiteral_append quote text]
  rw [nested_append, hliteral]
  rcases hends with rfl | hnil | ⟨rfl, below, hbelow⟩
  · rfl
  · rw [hnil]
    rfl
  · rw [hbelow]
    rfl

end

-- The front of a text stays within the first line when it holds no line break.
theorem byteSize_le_takeWhile_iff {front back : List Char} :
    byteSize front ≤ byteSize ((front ++ back).takeWhile (· != '\n')) ↔ '\n' ∉ front := by
  induction front with
  | nil => simp
  | cons c front ih =>
      by_cases hc : c = '\n'
      · subst hc
        have hpos := Char.utf8Size_pos '\n'
        simp only [List.cons_append, List.takeWhile_cons, bne_self_eq_false, Bool.false_eq_true,
          if_false, byteSize_cons, byteSize_nil, List.mem_cons, true_or, not_true_eq_false, iff_false]
        omega
      · have hgoes : (c != '\n') = true := bne_iff_ne.mpr hc
        rw [List.cons_append, List.takeWhile_cons, if_pos hgoes, byteSize_cons, byteSize_cons,
          Nat.add_le_add_iff_left, ih, List.mem_cons, not_or]
        exact (and_iff_right (Ne.symm hc)).symm

-- A literal ends with its line unless a backslash of it stands right before the line break. What reads
-- the braces of a text goes on behind the literal as if the literal were not there.
theorem confined_iff {text rest : List Char} {offset : Nat} {quote : Char}
    (hquote : isQuote quote = true) (htext : dropBytes? offset text = some (quote :: rest)) :
    ∃ literal behind, quote :: rest = literal ++ behind ∧
      literalEnd? text offset = some (offset + byteSize literal) ∧
      (Confined text offset ↔
        ¬∃ inside below, Inside quote inside ∧ rest = inside ++ '\\' :: '\n' :: below) ∧
      ∀ mode : Mode, mode.isCode = true →
        (∀ depth, enclosedFrom mode depth [] (quote :: rest) =
          (enclosedFrom .code depth [] behind).map fun block => (literal ++ block.1, block.2)) ∧
        ∀ n, (nested (mode, n) (quote :: rest)).2 = (nested (.code, n) behind).2 := by
  have hsplit : quote :: rest =
      (quote :: (cutLiteral quote rest).1) ++ (cutLiteral quote rest).2 := by
    rw [List.cons_append, cutLiteral_append]
  have hend : literalEnd? text offset =
      some (offset + byteSize (quote :: (cutLiteral quote rest).1)) := by
    simp only [literalEnd?, htext, hquote, if_true, byteSize_cons, Nat.add_assoc]
  have hline : lineEnd? text offset =
      some (offset + byteSize ((quote :: rest).takeWhile (· != '\n'))) := by
    rw [lineEnd?, htext, Option.map_some]
  have hbreak : quote ≠ '\n' := ne_of_isQuote hquote rfl
  refine ⟨quote :: (cutLiteral quote rest).1, (cutLiteral quote rest).2, hsplit, hend, ?_, ?_⟩
  · calc Confined text offset
        ↔ byteSize (quote :: (cutLiteral quote rest).1) ≤
            byteSize ((quote :: rest).takeWhile (· != '\n')) := by
          simp [Confined, hend, hline]
      _ ↔ '\n' ∉ quote :: (cutLiteral quote rest).1 := by rw [hsplit, byteSize_le_takeWhile_iff]
      _ ↔ '\n' ∉ (cutLiteral quote rest).1 := by simp [hbreak.symm]
      _ ↔ _ := not_congr (break_mem_cutLiteral_iff hquote)
  · exact fun mode hmode =>
      ⟨fun depth => enclosedFrom_literal hquote hmode depth rest,
        fun n => nested_literal hquote hmode n rest⟩

-- A quote behind a backslash does not end a literal, which then is confined to its line all the same.
theorem confined_escapedQuote :
    Confined ['a', '\'', 'b', '\\', '\'', 'é', '\n', '}'] 1 := by
  have htext : dropBytes? 1 ['a', '\'', 'b', '\\', '\'', 'é', '\n', '}'] =
      some ('\'' :: ['b', '\\', '\'', 'é', '\n', '}']) := by decide +kernel
  obtain ⟨_, _, _, _, hconfined, _⟩ := confined_iff (by decide) htext
  refine hconfined.mpr ?_
  rintro ⟨inside, below, -, hrest⟩
  have hinfix : ['\\', '\n'] <:+: ['b', '\\', '\'', 'é', '\n', '}'] :=
    ⟨inside, below, by simp [hrest]⟩
  exact absurd hinfix (by decide)

-- A stray quote with a backslash at the end of its line hides the brace on the line below.
theorem not_confined_backslash :
    ¬Confined ['{', '\'', '\\', '\n', '}'] 1 ∧
      matchingBrace? ['{', '\'', '\\', '\n', '}'] 0 = none := by
  refine ⟨?_, by decide +kernel⟩
  rintro ⟨stop, last, hstop, hlast, hle⟩
  have hstop' : literalEnd? ['{', '\'', '\\', '\n', '}'] 1 = some 5 := by decide +kernel
  have hlast' : lineEnd? ['{', '\'', '\\', '\n', '}'] 1 = some 3 := by decide +kernel
  rw [hstop'] at hstop
  rw [hlast'] at hlast
  cases hstop
  cases hlast
  exact absurd hle (by decide)

end TypeAtlas.Dump
