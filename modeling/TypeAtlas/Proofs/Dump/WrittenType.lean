import TypeAtlas.Proofs.Dump.Block
import TypeAtlas.Proofs.Text.Utf8
import TypeAtlas.Proofs.Text.Written

namespace TypeAtlas.Dump

open Text

def IsGap (gap : List Char) : Prop :=
  gap ≠ [] ∧ ∀ c ∈ gap, isIndent c = true

instance (gap : List Char) : Decidable (IsGap gap) :=
  inferInstanceAs (Decidable (gap ≠ [] ∧ ∀ c ∈ gap, isIndent c = true))

-- A modifier and the gap behind it.
structure WrittenModifier where
  word : String
  gap : List Char
  recognized : word ∈ Header.modifierWords
  parted : IsGap gap

def WrittenModifier.text (modifier : WrittenModifier) : List Char :=
  modifier.word.toList ++ modifier.gap

-- What stands between the braces of a type: a line break, and lines that each have one.
def bodyText (lineBreak : LineBreak) (lines : List (List Char)) : List Char :=
  lineBreak.text ++ lines.flatMap (· ++ lineBreak.text)

-- A type as dumps write it: a header with a comment, and below it a block of lines of which none
-- begins with a header, closed by the brace written for it.
structure WrittenType where
  indent : List Char
  modifiers : List WrittenModifier
  kind : Kind
  gap : List Char
  outer : List Char
  nested : List (List Char)
  base : Option (List Char)
  comment : List Char
  lineBreak : LineBreak
  lines : List (List Char)
  indented : ∀ c ∈ indent, isIndent c = true
  parted : IsGap gap
  isName : ∀ part ∈ outer :: nested, IsName Header.isNameChar part
  isBase : ∀ name ∈ base, IsName (fun c => isWord c || c == '.') name
  oneLine : ∀ line ∈ comment :: lines, '\n' ∉ line
  noHeader : ∀ line ∈ lines, Header.read? line = none
  balanced : matchingBrace? ('{' :: bodyText lineBreak lines ++ ['}']) 0 =
    some (1 + byteSize (bodyText lineBreak lines))

namespace WrittenType

def name (type : WrittenType) : List Char :=
  type.outer ++ type.nested.flatMap ('.' :: ·)

def baseText (type : WrittenType) : List Char :=
  match type.base with
  | some base => [' ', ':', ' '] ++ base
  | none => []

def body (type : WrittenType) : List Char :=
  bodyText type.lineBreak type.lines

def firstLine (type : WrittenType) : List Char :=
  type.indent ++ type.modifiers.flatMap WrittenModifier.text ++ type.kind.keyword.toList ++
    type.gap ++ type.name ++ type.baseText ++ [' ', '/', '/', ' '] ++ type.comment

def text (type : WrittenType) : List Char :=
  type.firstLine ++ type.lineBreak.text ++ '{' :: type.body ++ '}' :: type.lineBreak.text

def isAbstract (type : WrittenType) : Bool :=
  (type.modifiers.map WrittenModifier.word).contains "abstract"

def declaration (type : WrittenType) : Declaration :=
  ⟨type.kind, String.ofList type.name, type.isAbstract, type.base.map String.ofList, type.body⟩

def key (type : WrittenType) : Kind × String :=
  (type.kind, String.ofList type.name)

end WrittenType

theorem modifierWords_prefixFree : PrefixFree Header.modifierWords := by
  unfold PrefixFree
  decide

theorem modifierWords_start {word : String} (h : word ∈ Header.modifierWords) :
    StartsName word.toList := by
  have hwords : ∀ word ∈ Header.modifierWords, StartsName word.toList := by decide
  exact hwords word h

theorem WrittenModifier.starts (modifier : WrittenModifier) : StartsName modifier.text :=
  (modifierWords_start modifier.recognized).append _

theorem Kind.starts (kind : Kind) : StartsName kind.keyword.toList := by
  cases kind <;> decide

-- A line that begins with a character of its own, such as a brace, begins with no header.
theorem Header.read?_of_symbol {c : Char} (hindent : isIndent c = false) (hopen : c ≠ '[')
    (hstart : isNameStart c = false) (rest : List Char) : Header.read? (c :: rest) = none := by
  have hno : ∀ {word : List Char}, StartsName word → ¬word <+: c :: rest := by
    rintro word hword hbegins
    obtain ⟨d, hd, hname⟩ := hword.of_front hbegins
    cases hd
    cases hstart.symm.trans hname
  have hmodifier : Header.modifier? (c :: rest) = none := by
    have hword : word? Header.modifierWords (c :: rest) = none := by
      rw [word?_eq_none_iff]
      intro word hmem
      exact hno (modifierWords_start hmem)
    rw [Header.modifier?, hword]
  have hkind : Kind.read? (c :: rest) = none := by
    rw [Kind.read?, List.findSome?_eq_none_iff]
    intro kind _
    have hafter : after? kind.keyword.toList (c :: rest) = none := by
      rw [Option.eq_none_iff_forall_ne_some]
      intro more hmore
      exact hno kind.starts ⟨more, (after?_eq_some_iff.mp hmore).symm⟩
    rw [hafter]
    rfl
  have hdrop : (c :: rest).dropWhile isIndent = c :: rest :=
    dropWhile_of_endsRun (.cons hindent rest)
  rw [Header.read?, hdrop, afterAttributes_none (attribute?_of_ne hopen rest),
    Header.modifiers_none hmodifier]
  dsimp only
  rw [hkind]
  rfl

-- No modifier is read where a kind is written.
theorem modifier?_keyword (kind : Kind) (rest : List Char) :
    Header.modifier? (kind.keyword.toList ++ rest) = none := by
  have hapart : ∀ word ∈ Header.modifierWords,
      ¬word.toList <+: kind.keyword.toList ∧ ¬kind.keyword.toList <+: word.toList := by
    cases kind <;> decide
  have hnone : word? Header.modifierWords (kind.keyword.toList ++ rest) = none := by
    rw [word?_eq_none_iff]
    intro word hword hbegins
    obtain ⟨hlong, hshort⟩ := hapart word hword
    have hkeyword := List.prefix_append kind.keyword.toList rest
    rcases List.prefix_or_prefix_of_prefix hbegins hkeyword with h | h
    · exact hlong h
    · exact hshort h
  rw [Header.modifier?, hnone]

theorem starts_modifiers (modifiers : List WrittenModifier) {rest : List Char}
    (h : StartsName rest) : StartsName (modifiers.flatMap WrittenModifier.text ++ rest) := by
  cases modifiers with
  | nil => exact h
  | cons modifier others =>
      rw [List.flatMap_cons, List.append_assoc]
      exact modifier.starts.append _

theorem modifiers_written (modifiers : List WrittenModifier) {rest : List Char}
    (hrest : StartsName rest) (hnone : Header.modifier? rest = none) :
    Header.modifiers (modifiers.flatMap WrittenModifier.text ++ rest) =
      (modifiers.map WrittenModifier.word, rest) := by
  induction modifiers with
  | nil => exact Header.modifiers_none hnone
  | cons modifier others ih =>
      have hread : Header.modifier?
          (modifier.text ++ (others.flatMap WrittenModifier.text ++ rest)) =
            some (modifier.word, others.flatMap WrittenModifier.text ++ rest) := by
        have hends := (starts_modifiers others hrest).endsIndent
        rw [WrittenModifier.text, List.append_assoc, Header.modifier?,
          word?_written modifierWords_prefixFree modifier.recognized]
        dsimp only
        rw [indents?_written modifier.parted.1 modifier.parted.2 hends, Option.map_some]
      rw [List.flatMap_cons, List.append_assoc, Header.modifiers_some hread, ih, List.map_cons]

theorem Kind.read?_written (kind : Kind) {gap rest : List Char} (hgap : IsGap gap)
    (hrest : EndsRun isIndent rest) :
    Kind.read? (kind.keyword.toList ++ (gap ++ rest)) = some (kind, rest) := by
  have hindents := indents?_written hgap.1 hgap.2 hrest
  cases kind <;> simp [Kind.read?, Kind.all, Kind.keyword, after?, hindents]

theorem dottedParts_written {nested : List (List Char)}
    (h : ∀ part ∈ nested, IsName Header.isNameChar part) {rest : List Char}
    (hrest : EndsRun Header.isNameChar rest) (hdot : rest.head? ≠ some '.') :
    Header.dottedParts (nested.flatMap ('.' :: ·) ++ rest) = (nested.flatMap ('.' :: ·), rest) := by
  induction nested with
  | nil =>
      apply Header.dottedParts_none
      cases rest with
      | nil => rfl
      | cons c rest =>
          have hc : c ≠ '.' := fun hc => hdot (hc ▸ rfl)
          simp [Header.dottedPart?, hc]
  | cons part others ih =>
      obtain ⟨hpart, hothers⟩ := List.forall_mem_cons.mp h
      have hends : EndsRun Header.isNameChar (others.flatMap ('.' :: ·) ++ rest) := by
        cases others with
        | nil => exact hrest
        | cons other others => exact .cons (by decide) _
      have hread : Header.dottedPart? ('.' :: (part ++ (others.flatMap ('.' :: ·) ++ rest))) =
          some (part, others.flatMap ('.' :: ·) ++ rest) := name?_written hpart hends
      rw [List.flatMap_cons, List.append_assoc, List.cons_append, Header.dottedParts_some hread,
        ih hothers]

namespace WrittenType

variable (type : WrittenType)

def header : Header :=
  ⟨type.kind, String.ofList type.name, type.isAbstract, false, type.base.map String.ofList⟩

-- What the reading of a header leaves of its line: the filler before a comment belongs to the header
-- unless a base stands before it.
def behindHeader : List Char :=
  match type.base with
  | some _ => [' ', '/', '/', ' '] ++ type.comment
  | none => ['/', '/', ' '] ++ type.comment

-- What follows the name.
def behindName (rest : List Char) : List Char :=
  type.baseText ++ ([' ', '/', '/', ' '] ++ (type.comment ++ rest))

theorem behindName_head (rest : List Char) : (type.behindName rest).head? = some ' ' := by
  unfold behindName baseText
  split
  · rfl
  · rfl

theorem typeParameters?_behindName (rest : List Char) :
    Header.typeParameters? (type.behindName rest) = none := by
  unfold behindName baseText
  split
  · rfl
  · rfl

theorem baseAfter_behindName (rest : List Char) :
    Header.baseAfter ((type.behindName rest).dropWhile Header.isFiller) =
      (type.base.map String.ofList, type.behindHeader ++ rest) := by
  unfold behindName baseText behindHeader
  cases hbase : type.base with
  | none => rfl
  | some base =>
      have hname := type.isBase base (by rw [hbase]; rfl)
      have hfiller : ([' ', ':', ' '] ++ base ++ ([' ', '/', '/', ' '] ++
          (type.comment ++ rest))).dropWhile Header.isFiller =
            ':' :: ([' '] ++ (base ++ ([' ', '/', '/', ' '] ++ (type.comment ++ rest)))) := by
        rw [List.append_assoc]
        rfl
      have hindent : ∀ c ∈ [' '], isIndent c = true := by decide
      have hread : name? (fun c => isWord c || c == '.')
          (base ++ ([' ', '/', '/', ' '] ++ (type.comment ++ rest))) =
            some (base, [' ', '/', '/', ' '] ++ (type.comment ++ rest)) :=
        name?_written hname (.cons (by decide) _)
      rw [hfiller, Header.baseAfter]
      dsimp only
      rw [dropWhile_written hindent (hname.starts.append _).endsIndent, hread, Option.map_some,
        List.append_assoc]

theorem name?_name (rest : List Char) :
    name? Header.isNameChar (type.name ++ type.behindName rest) =
      some (type.outer, type.nested.flatMap ('.' :: ·) ++ type.behindName rest) := by
  have hname := type.isName type.outer List.mem_cons_self
  have hends : EndsRun Header.isNameChar
      (type.nested.flatMap ('.' :: ·) ++ type.behindName rest) := by
    cases type.nested with
    | nil =>
        intro c hc
        cases (type.behindName_head rest).symm.trans hc
        decide
    | cons part others => exact .cons (by decide) _
  rw [name, List.append_assoc, name?_written hname hends]

theorem dottedParts_name (rest : List Char) :
    Header.dottedParts (type.nested.flatMap ('.' :: ·) ++ type.behindName rest) =
      (type.nested.flatMap ('.' :: ·), type.behindName rest) := by
  have hhead := type.behindName_head rest
  apply dottedParts_written
  · intro part hpart
    exact type.isName part (List.mem_cons_of_mem _ hpart)
  · intro c hc
    cases hhead.symm.trans hc
    decide
  · rw [hhead]
    decide

-- The first line is read as the header it was written for, whatever follows it.
theorem read?_firstLine (rest : List Char) :
    Header.read? (type.firstLine ++ rest) = some (type.header, type.behindHeader ++ rest) := by
  have hline : type.firstLine ++ rest = type.indent ++ (type.modifiers.flatMap WrittenModifier.text ++
      (type.kind.keyword.toList ++ (type.gap ++ (type.name ++ type.behindName rest)))) := by
    simp only [firstLine, behindName, List.append_assoc]
  have hname : StartsName (type.name ++ type.behindName rest) := by
    rw [name, List.append_assoc]
    exact (type.isName type.outer List.mem_cons_self).starts.append _
  have hkeyword := type.kind.starts.append (type.gap ++ (type.name ++ type.behindName rest))
  have hstarts := starts_modifiers type.modifiers hkeyword
  have hmodifiers := modifiers_written type.modifiers hkeyword (modifier?_keyword type.kind _)
  have hkind := type.kind.read?_written type.parted hname.endsIndent
  rw [hline, Header.read?, dropWhile_written type.indented hstarts.endsIndent,
    afterAttributes_none hstarts.attribute?, hmodifiers]
  simp only [hkind, Option.bind_eq_bind, Option.bind_some, name?_name, dottedParts_name,
    typeParameters?_behindName, Option.getD_none, baseAfter_behindName, Option.isSome_none]
  rfl

-- The search for the opening brace passes over the comment and finds the brace below it.
theorem opening?_behindHeader (rest : List Char) :
    opening? false false (type.behindHeader ++ (type.lineBreak.text ++ '{' :: rest)) = some rest := by
  obtain ⟨carriage, hbreak, hcarriage⟩ := type.lineBreak.exists_carriage
  have hline : '\n' ∉ ' ' :: (type.comment ++ carriage) := by
    have hcomment := type.oneLine type.comment List.mem_cons_self
    simp [hcomment, hcarriage]
  have hbrace : opening? true false ('{' :: rest) = some rest := by
    rw [opening?_cons (by rintro _ ⟨⟩)]
    rfl
  have hcomment : opening? false false
      (['/', '/', ' '] ++ type.comment ++ (type.lineBreak.text ++ '{' :: rest)) = some rest := by
    have hfound := opening?_comment hline false ('{' :: rest)
    rw [hbreak]
    simp only [List.cons_append, List.nil_append, List.append_assoc] at hfound ⊢
    rw [← hbrace, ← hfound]
    rfl
  unfold behindHeader
  split
  · rw [← hcomment, List.append_assoc, List.cons_append, opening?_cons (by rintro _ ⟨⟩)]
    rfl
  · exact hcomment

theorem enclosed?_body (rest : List Char) :
    enclosed? (type.body ++ '}' :: rest) = some (type.body, rest) := by
  have hmatch := type.balanced
  rw [matchingBrace?, List.cons_append, dropBytes?] at hmatch
  simp only [if_true] at hmatch
  obtain ⟨⟨found, after⟩, hblock, hsize⟩ := Option.map_eq_some_iff.mp hmatch
  have htext : type.body ++ ['}'] = found ++ '}' :: after := eq_of_enclosedFrom hblock
  have hbody : found = type.body := by
    have hbegins : found <+: type.body ++ ['}'] := ⟨'}' :: after, htext.symm⟩
    have hbytes : byteSize found = byteSize type.body := by
      dsimp only at hsize
      rw [body]
      omega
    exact eq_of_byteSize_eq hbegins (List.prefix_append type.body ['}']) hbytes
  subst hbody
  have hafter : after = [] := by
    have htail := List.append_cancel_left htext
    exact (List.cons.inj htail).2.symm
  have hfound := enclosedFrom_append hblock rest
  rwa [hafter, List.append_assoc] at hfound

theorem break_not_mem_firstLine : '\n' ∉ type.firstLine := by
  have hindent : ∀ text : List Char, (∀ c ∈ text, isIndent c = true) → '\n' ∉ text := by
    intro text h hc
    exact absurd (h _ hc) (by decide)
  have hmodifiers : '\n' ∉ type.modifiers.flatMap WrittenModifier.text := by
    have hwords : ∀ word ∈ Header.modifierWords, '\n' ∉ word.toList := by decide
    intro hc
    obtain ⟨modifier, -, hc⟩ := List.mem_flatMap.mp hc
    rcases List.mem_append.mp hc with hc | hc
    · exact hwords _ modifier.recognized hc
    · exact hindent _ modifier.parted.2 hc
  have hkeyword : '\n' ∉ type.kind.keyword.toList := by cases type.kind <;> decide
  have hpart : ∀ part ∈ type.outer :: type.nested, '\n' ∉ part := fun part h =>
    (type.isName part h).not_mem (by decide) (by decide)
  have hname : '\n' ∉ type.name := by
    have hnested : '\n' ∉ type.nested.flatMap ('.' :: ·) := by
      intro hc
      obtain ⟨part, hmem, hc⟩ := List.mem_flatMap.mp hc
      rcases List.mem_cons.mp hc with hc | hc
      · exact absurd hc (by decide)
      · exact hpart part (List.mem_cons_of_mem _ hmem) hc
    exact List.not_mem_append (hpart _ List.mem_cons_self) hnested
  have hbase : '\n' ∉ type.baseText := by
    unfold baseText
    split
    · rename_i base hsome
      have hname := (type.isBase base hsome).not_mem (c := '\n') (by decide) (by decide)
      simp [hname]
    · exact List.not_mem_nil
  have hcomment := type.oneLine type.comment List.mem_cons_self
  simp only [firstLine, List.mem_append, not_or]
  exact ⟨⟨⟨⟨⟨⟨⟨hindent _ type.indented, hmodifiers⟩, hkeyword⟩, hindent _ type.parted.2⟩, hname⟩,
    hbase⟩, by decide⟩, hcomment⟩

theorem lineStarts_line {line : List Char} (h : '\n' ∉ line) (rest : List Char) :
    lineStarts (line ++ (type.lineBreak.text ++ rest)) =
      (line ++ (type.lineBreak.text ++ rest)) :: lineStarts rest := by
  obtain ⟨carriage, hbreak, hcarriage⟩ := type.lineBreak.exists_carriage
  have hlater := laterLines_line (List.not_mem_append h hcarriage) rest
  have htext : line ++ (type.lineBreak.text ++ rest) = line ++ carriage ++ '\n' :: rest := by
    rw [hbreak]
    simp
  rw [htext, lineStarts, hlater]

theorem read?_lineStarts_lines {lines : List (List Char)} (hsub : lines ⊆ type.lines) {line : List Char}
    (h : line ∈ lineStarts (lines.flatMap (· ++ type.lineBreak.text) ++ '}' :: type.lineBreak.text)) :
    Header.read? line = none := by
  induction lines with
  | nil =>
      have hclosing : '\n' ∉ ['}'] := by decide
      have hstarts := type.lineStarts_line hclosing []
      rw [List.append_nil] at hstarts
      rw [List.flatMap_nil, List.nil_append, ← List.singleton_append, hstarts] at h
      rcases List.mem_cons.mp h with rfl | h
      · exact Header.read?_of_symbol rfl (by decide) rfl _
      · rw [List.mem_singleton.mp h]
        exact Header.read?_of_stops (.nil _)
  | cons first rest ih =>
      obtain ⟨hfirst, hrest⟩ := List.cons_subset.mp hsub
      rw [List.flatMap_cons, List.append_assoc, List.append_assoc,
        type.lineStarts_line (type.oneLine first (List.mem_cons_of_mem _ hfirst))] at h
      rcases List.mem_cons.mp h with rfl | h
      · exact Header.read?_append_of_none (type.noHeader first hfirst) (type.lineBreak.stops _)
          (type.lineBreak.leavesOpen _)
      · exact ih hrest h

-- No line below the first begins with a header.
theorem read?_laterLines {line : List Char} (h : line ∈ laterLines type.text) :
    Header.read? line = none := by
  have hopening : '\n' ∉ ['{'] := by decide
  have htext : type.text = type.firstLine ++ (type.lineBreak.text ++ (['{'] ++ (type.lineBreak.text ++
      (type.lines.flatMap (· ++ type.lineBreak.text) ++ '}' :: type.lineBreak.text)))) := by
    simp [text, body, bodyText]
  have hstarts := type.lineStarts_line type.break_not_mem_firstLine (['{'] ++ (type.lineBreak.text ++
    (type.lines.flatMap (· ++ type.lineBreak.text) ++ '}' :: type.lineBreak.text)))
  rw [htext, (List.cons.inj hstarts).2, type.lineStarts_line hopening] at h
  rcases List.mem_cons.mp h with rfl | h
  · exact Header.read?_of_symbol rfl (by decide) rfl _
  · exact type.read?_lineStarts_lines (List.Subset.refl _) h

def block : Block where
  text := type.text
  header := type.header
  afterHeader := type.behindHeader ++
    (type.lineBreak.text ++ '{' :: (type.body ++ '}' :: type.lineBreak.text))
  afterOpening := type.body ++ '}' :: type.lineBreak.text
  body := type.body
  afterClosing := type.lineBreak.text
  reads := by
    rw [text, List.append_assoc, List.append_assoc, read?_firstLine]
    rfl
  alone _ h := type.read?_laterLines h
  opens := type.opening?_behindHeader _
  closes := type.enclosed?_body _
  blank := by cases type.lineBreak <;> decide
  ends := by
    obtain ⟨carriage, hbreak, -⟩ := type.lineBreak.exists_carriage
    have htext : type.text = type.firstLine ++ type.lineBreak.text ++ '{' :: type.body ++
        '}' :: carriage ++ ['\n'] := by
      simp [text, hbreak]
    exact List.getLast?_eq_some_iff.mpr ⟨_, htext⟩

end WrittenType

-- Scanning finds the types written one below the other, each as it was written, in their order.
theorem Index.declarations_scan_written {types : List WrittenType}
    (hkeys : (types.map WrittenType.key).Nodup) :
    (Index.scan (types.flatMap WrittenType.text)).declarations =
      types.map WrittenType.declaration := by
  have hblocks : ((types.map WrittenType.block).map Block.key).Nodup := by
    rw [List.map_map]
    exact hkeys
  have hscan := Block.declarations_scan hblocks
  rw [List.flatMap_map, List.filterMap_map] at hscan
  refine hscan.trans ?_
  rw [← List.filterMap_eq_map]
  rfl

-- A class within another one, of which braces in comments do not count.
def officerType : WrittenType where
  indent := []
  modifiers := [⟨"public", [' '], by decide, by decide⟩, ⟨"abstract", [' ', ' '], by decide, by decide⟩]
  kind := .classType
  gap := ['\t']
  outer := "Squad".toList
  nested := ["Officer".toList]
  base := some "Unit.Base".toList
  comment := '{' :: " : enum".toList
  lineBreak := .feed
  lines := ["if ".toList ++ ['{'], '}' :: " // ".toList ++ ['}']]
  indented := by decide
  parted := by decide
  isName := by decide
  isBase := by decide
  oneLine := by decide
  noHeader := by decide +kernel
  balanced := by decide +kernel

def rankType : WrittenType where
  indent := ['\t']
  modifiers := []
  kind := .enumType
  gap := [' ']
  outer := "Rank".toList
  nested := []
  base := none
  comment := []
  lineBreak := .returnFeed
  lines := []
  indented := by decide
  parted := by decide
  isName := by decide
  isBase := by decide
  oneLine := by decide
  noHeader := by decide
  balanced := by decide +kernel

example : rankType.text = "\tenum Rank // \r\n".toList ++ braced ['\r', '\n'] ++ ['\r', '\n'] := by
  decide

theorem officer_and_rank_scanned :
    ([officerType, rankType].map WrittenType.key).Nodup ∧
      (Index.scan ([officerType, rankType].flatMap WrittenType.text)).declarations =
        [⟨.classType, "Squad.Officer", true, some "Unit.Base", officerType.body⟩,
          ⟨.enumType, "Rank", false, none, rankType.body⟩] := by
  have hkeys : ([officerType, rankType].map WrittenType.key).Nodup := by decide
  exact ⟨hkeys, Index.declarations_scan_written hkeys⟩

end TypeAtlas.Dump
