import TypeAtlas.Proofs.Text.Line
import TypeAtlas.Proofs.Text.Read

namespace TypeAtlas.Text

-- A line feed, alone or behind a carriage return.
inductive LineBreak
  | feed
  | returnFeed

namespace LineBreak

def text : LineBreak → List Char
  | feed => ['\n']
  | returnFeed => ['\r', '\n']

theorem exists_carriage (lineBreak : LineBreak) :
    ∃ carriage, lineBreak.text = carriage ++ ['\n'] ∧ '\n' ∉ carriage := by
  cases lineBreak with
  | feed => exact ⟨[], rfl, by decide⟩
  | returnFeed => exact ⟨['\r'], rfl, by decide⟩

theorem stops (lineBreak : LineBreak) (rest : List Char) :
    Stops wordStops (lineBreak.text ++ rest) := by
  cases lineBreak with
  | feed => exact .cons (by decide) rest
  | returnFeed => exact .cons (by decide) ('\n' :: rest)

theorem leavesOpen (lineBreak : LineBreak) (rest : List Char) :
    LeavesOpen (lineBreak.text ++ rest) := by
  cases lineBreak with
  | feed => exact ⟨by simp [text], fun _ hclosed => by cases hclosed⟩
  | returnFeed => exact ⟨by simp [text], fun _ hclosed => by cases hclosed⟩

theorem afterLine?_line {line : List Char} (h : '\n' ∉ line) (lineBreak : LineBreak)
    (rest : List Char) : afterLine? (line ++ (lineBreak.text ++ rest)) = some rest := by
  obtain ⟨carriage, hbreak, hcarriage⟩ := lineBreak.exists_carriage
  have htext : line ++ (lineBreak.text ++ rest) = line ++ carriage ++ '\n' :: rest := by
    simp [hbreak]
  rw [htext, Text.afterLine?_line (List.not_mem_append h hcarriage)]

end LineBreak

-- The code points of the blanks.
def blankPoints : List Nat :=
  List.range' 0x9 5 ++ [0x20, 0x85, 0xA0, 0x1680] ++ List.range' 0x2000 11 ++
    [0x2028, 0x2029, 0x202F, 0x205F, 0x3000]

theorem mem_blankPoints {c : Char} (h : isBlank c = true) : c.toNat ∈ blankPoints := by
  simp only [isBlank, Bool.or_eq_true, Bool.and_eq_true, beq_iff_eq, decide_eq_true_eq] at h
  simp only [blankPoints, List.mem_append, List.mem_range'_1, List.mem_cons, List.not_mem_nil]
  omega

-- Characters of a class that no blank belongs to are not blank.
theorem isBlank_eq_false {among : Char → Bool}
    (hblanks : ∀ n ∈ blankPoints, among (Char.ofNat n) = false) {c : Char} (h : among c = true) :
    isBlank c = false := by
  apply Bool.eq_false_iff.mpr
  intro hblank
  have hc := hblanks c.toNat (mem_blankPoints hblank)
  rw [Char.ofNat_toNat, h] at hc
  cases hc

theorem isBlank_of_isNameStart {c : Char} (h : isNameStart c = true) : isBlank c = false :=
  isBlank_eq_false (by decide +kernel) h

theorem isBlank_of_isWord {c : Char} (h : isWord c = true) : isBlank c = false :=
  isBlank_eq_false (by decide +kernel) h

section

variable {among : Char → Bool} {run rest : List Char}

theorem dropWhile_written (hrun : ∀ c ∈ run, among c = true) (hrest : EndsRun among rest) :
    (run ++ rest).dropWhile among = rest := by
  rw [List.dropWhile_append_of_pos hrun, dropWhile_of_endsRun hrest]

theorem takeWhile_written (hrun : ∀ c ∈ run, among c = true) (hrest : EndsRun among rest) :
    (run ++ rest).takeWhile among = run := by
  rw [List.takeWhile_append_of_pos hrun, takeWhile_of_endsRun hrest, List.append_nil]

-- The front of a text up to the first character of one kind is the same however the text is put
-- together.
theorem eq_of_append_cons {stop : Char} {front other more otherMore : List Char}
    (h : front ++ stop :: more = other ++ stop :: otherMore) (hfront : stop ∉ front)
    (hother : stop ∉ other) : front = other := by
  have hends (text : List Char) : EndsRun (· != stop) (stop :: text) := .cons (by simp) text
  have hrun {text : List Char} (htext : stop ∉ text) : ∀ c ∈ text, (c != stop) = true := by
    intro c hc
    rw [bne_iff_ne]
    rintro rfl
    exact htext hc
  have htake := congrArg (List.takeWhile (· != stop)) h
  rwa [takeWhile_written (hrun hfront) (hends more),
    takeWhile_written (hrun hother) (hends otherMore)] at htake

-- Where a text ends in a run, it does so in one way.
theorem eq_of_append_run {front other otherRun : List Char} (h : front ++ run = other ++ otherRun)
    (hrun : ∀ c ∈ run, among c = true) (hfront : EndsRun among front.reverse)
    (hotherRun : ∀ c ∈ otherRun, among c = true) (hother : EndsRun among other.reverse) :
    front = other := by
  have hreverse := congrArg (fun text => text.reverse.dropWhile among) h
  simp only [List.reverse_append] at hreverse
  have hrun' : ∀ c ∈ run.reverse, among c = true := fun c hc => hrun c (List.mem_reverse.mp hc)
  have hotherRun' : ∀ c ∈ otherRun.reverse, among c = true :=
    fun c hc => hotherRun c (List.mem_reverse.mp hc)
  rw [dropWhile_written hrun' hfront, dropWhile_written hotherRun' hother] at hreverse
  exact List.reverse_inj.mp hreverse

theorem run?_written (hne : run ≠ []) (hrun : ∀ c ∈ run, among c = true)
    (hrest : EndsRun among rest) : run? among (run ++ rest) = some (run, rest) := by
  obtain ⟨c, tail, rfl⟩ := List.exists_cons_of_ne_nil hne
  obtain ⟨hc, htail⟩ := List.forall_mem_cons.mp hrun
  rw [List.cons_append, run?, if_pos hc, takeWhile_written htail hrest,
    dropWhile_written htail hrest]

theorem indents?_written (hne : run ≠ []) (hrun : ∀ c ∈ run, isIndent c = true)
    (hrest : EndsRun isIndent rest) : indents? (run ++ rest) = some rest := by
  obtain ⟨c, tail, rfl⟩ := List.exists_cons_of_ne_nil hne
  obtain ⟨hc, htail⟩ := List.forall_mem_cons.mp hrun
  rw [List.cons_append, indents?, if_pos hc, dropWhile_written htail hrest]

theorem trimEnd_written {text after : List Char} (htext : EndsRun isBlank text.reverse)
    (hafter : ∀ c ∈ after, isBlank c = true) : trimEnd (text ++ after) = text := by
  have hreverse : ∀ c ∈ after.reverse, isBlank c = true := fun c hc =>
    hafter c (List.mem_reverse.mp hc)
  rw [trimEnd, List.reverse_append, dropWhile_written hreverse htext, List.reverse_reverse]

theorem trim_written {before text after : List Char} (hfront : EndsRun isBlank (text ++ after))
    (hback : EndsRun isBlank text.reverse) (hbefore : ∀ c ∈ before, isBlank c = true)
    (hafter : ∀ c ∈ after, isBlank c = true) : trim (before ++ text ++ after) = text := by
  rw [trim, trimStart, List.append_assoc, dropWhile_written hbefore hfront,
    trimEnd_written hback hafter]

theorem blanks?_written (hne : run ≠ []) (hrun : ∀ c ∈ run, isBlank c = true)
    (hrest : EndsRun isBlank rest) : blanks? (run ++ rest) = some rest := by
  obtain ⟨c, tail, rfl⟩ := List.exists_cons_of_ne_nil hne
  obtain ⟨hc, htail⟩ := List.forall_mem_cons.mp hrun
  rw [List.cons_append, blanks?, if_pos hc, trimStart, dropWhile_written htail hrest]

end

-- A letter or underscore, and characters that may follow it.
def IsName (follows : Char → Bool) (name : List Char) : Prop :=
  ∃ c rest, name = c :: rest ∧ isNameStart c = true ∧ ∀ d ∈ rest, follows d = true

instance decidableIsName (follows : Char → Bool) : (name : List Char) → Decidable (IsName follows name)
  | [] => isFalse (by rintro ⟨c, rest, hname, -⟩; cases hname)
  | c :: rest => decidable_of_iff (isNameStart c = true ∧ ∀ d ∈ rest, follows d = true) <| by
      constructor
      · rintro ⟨hc, hrest⟩
        exact ⟨c, rest, rfl, hc, hrest⟩
      · rintro ⟨d, others, hname, hd, hothers⟩
        cases hname
        exact ⟨hd, hothers⟩

theorem name?_written {follows : Char → Bool} {name rest : List Char} (hname : IsName follows name)
    (hrest : EndsRun follows rest) : name? follows (name ++ rest) = some (name, rest) := by
  obtain ⟨c, tail, rfl, hc, htail⟩ := hname
  rw [List.cons_append, name?, if_pos hc, takeWhile_written htail hrest,
    dropWhile_written htail hrest]

theorem IsName.not_mem {follows : Char → Bool} {name : List Char} {c : Char}
    (h : IsName follows name) (hstart : isNameStart c = false) (hfollows : follows c = false) :
    c ∉ name := by
  obtain ⟨first, rest, rfl, hfirst, hrest⟩ := h
  intro hc
  rcases List.mem_cons.mp hc with rfl | hc
  · cases hstart.symm.trans hfirst
  · cases hfollows.symm.trans (hrest c hc)

-- A text that begins as a name does.
def StartsName (text : List Char) : Prop :=
  ∃ c ∈ text.head?, isNameStart c = true

instance decidableStartsName : (text : List Char) → Decidable (StartsName text)
  | [] => isFalse (by rintro ⟨c, hc, -⟩; cases hc)
  | c :: _ => decidable_of_iff (isNameStart c = true) <| by
      constructor
      · intro hc
        exact ⟨c, rfl, hc⟩
      · rintro ⟨d, hd, hstart⟩
        cases hd
        exact hstart

theorem IsName.starts {follows : Char → Bool} {name : List Char} (h : IsName follows name) :
    StartsName name := by
  obtain ⟨c, rest, rfl, hc, -⟩ := h
  exact ⟨c, rfl, hc⟩

theorem StartsName.append {front : List Char} (h : StartsName front) (back : List Char) :
    StartsName (front ++ back) := by
  obtain ⟨c, hc, hstart⟩ := h
  obtain ⟨rest, rfl⟩ := List.head?_eq_some_iff.mp hc
  exact ⟨c, rfl, hstart⟩

theorem StartsName.of_front {front text : List Char} (h : StartsName front)
    (hbegins : front <+: text) : StartsName text := by
  obtain ⟨back, rfl⟩ := hbegins
  exact h.append back

theorem StartsName.attribute? {text : List Char} (h : StartsName text) : attribute? text = none := by
  obtain ⟨c, hc, hstart⟩ := h
  obtain ⟨rest, rfl⟩ := List.head?_eq_some_iff.mp hc
  apply attribute?_of_ne
  rintro rfl
  exact absurd hstart (by decide)

theorem StartsName.endsRun {among : Char → Bool} {text : List Char}
    (hamong : ∀ {c : Char}, isNameStart c = true → among c = false) (h : StartsName text) :
    EndsRun among text := by
  obtain ⟨c, hc, hstart⟩ := h
  obtain ⟨rest, rfl⟩ := List.head?_eq_some_iff.mp hc
  exact .cons (hamong hstart) rest

theorem StartsName.endsBlank {text : List Char} (h : StartsName text) : EndsRun isBlank text :=
  h.endsRun isBlank_of_isNameStart

theorem StartsName.endsIndent {text : List Char} (h : StartsName text) : EndsRun isIndent text := by
  refine h.endsRun fun {c} hstart => ?_
  apply Bool.eq_false_iff.mpr
  intro hindent
  have hblank := isBlank_of_isLayout (isLayout_of_isIndent hindent)
  rw [isBlank_of_isNameStart hstart] at hblank
  cases hblank

-- Words of which none begins another.
def PrefixFree (words : List String) : Prop :=
  ∀ v ∈ words, ∀ w ∈ words, v.toList <+: w.toList → v = w

theorem word?_written {words : List String} (hfree : PrefixFree words) {word : String}
    (hword : word ∈ words) (rest : List Char) :
    word? words (word.toList ++ rest) = some (word, rest) := by
  have hafter : after? word.toList (word.toList ++ rest) = some rest := after?_eq_some_iff.mpr rfl
  have hsome : (word? words (word.toList ++ rest)).isSome = true :=
    List.findSome?_isSome_iff.mpr ⟨word, hword, by rw [hafter]; rfl⟩
  obtain ⟨found, hfound⟩ := Option.isSome_iff_exists.mp hsome
  obtain ⟨v, hv, hread⟩ := List.exists_of_findSome?_eq_some hfound
  obtain ⟨more, hmore, rfl⟩ := Option.map_eq_some_iff.mp hread
  have htext := after?_eq_some_iff.mp hmore
  have hsame : v = word := by
    have hbegins : v.toList <+: word.toList ++ rest := ⟨more, htext.symm⟩
    rcases List.prefix_or_prefix_of_prefix hbegins (List.prefix_append word.toList rest) with h | h
    · exact hfree v hv word hword h
    · exact (hfree word hword v hv h).symm
  subst hsame
  rw [hfound, List.append_cancel_left htext]

theorem word?_eq_none_iff {words : List String} {text : List Char} :
    word? words text = none ↔ ∀ word ∈ words, ¬word.toList <+: text := by
  simp only [word?, List.findSome?_eq_none_iff, Option.map_eq_none_iff]
  refine forall₂_congr fun word _ => ?_
  rw [Option.eq_none_iff_forall_ne_some]
  simp only [ne_eq, after?_eq_some_iff]
  constructor
  · rintro h ⟨rest, rfl⟩
    exact h rest rfl
  · rintro h rest rfl
    exact h (List.prefix_append word.toList rest)

end TypeAtlas.Text
