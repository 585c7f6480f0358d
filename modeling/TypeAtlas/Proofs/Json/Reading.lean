import TypeAtlas.Proofs.Json.Grammar

namespace TypeAtlas.Json

open Text

-- What may follow a numeral without going on with it.
def EndsNumeral (rest : List Char) : Prop :=
  ∀ c ∈ rest.head?, c.isDigit = false ∧ c ≠ '.' ∧ c ≠ 'e' ∧ c ≠ 'E'

theorem digits_append {ds rest : List Char} (hds : IsDigits ds)
    (hrest : ∀ c ∈ rest.head?, c.isDigit = false) : digits (ds ++ rest) = .ok (ds, rest) := by
  obtain ⟨hne, hall⟩ := hds
  have htake : rest.takeWhile Char.isDigit = [] := by
    cases rest with
    | nil => rfl
    | cons c rest => simp [hrest c rfl]
  have hdrop : rest.dropWhile Char.isDigit = rest := by
    cases rest with
    | nil => rfl
    | cons c rest => simp [hrest c rfl]
  cases ds with
  | nil => exact absurd rfl hne
  | cons c ds =>
      have htail : ∀ d ∈ ds, d.isDigit = true := fun d hd => hall d (List.mem_cons_of_mem c hd)
      simp [digits, hall c List.mem_cons_self, List.takeWhile_append_of_pos htail,
        List.dropWhile_append_of_pos htail, htake, hdrop]

theorem wholeDigits_append {ds rest : List Char} (hds : IsDigits ds)
    (hzero : ds = ['0'] ∨ ds.head? ≠ some '0') (hrest : ∀ c ∈ rest.head?, c.isDigit = false) :
    wholeDigits (ds ++ rest) = .ok (ds, rest) := by
  rcases hzero with rfl | hzero
  · cases rest with
    | nil => exact digits_append hds hrest
    | cons c rest => simp [wholeDigits, hrest c rfl]
  · have hlead : wholeDigits (ds ++ rest) = digits (ds ++ rest) := by
      cases ds with
      | nil => exact absurd rfl hds.1
      | cons d ds =>
          have hd : d ≠ '0' := fun h => hzero (h ▸ rfl)
          simp [wholeDigits, hd]
    rw [hlead, digits_append hds hrest]

theorem fractionDigits_append {text fraction rest : List Char} (h : SpellsFraction text fraction)
    (hrest : ∀ c ∈ rest.head?, c.isDigit = false ∧ c ≠ '.') :
    fractionDigits (text ++ rest) = .ok (fraction, rest) := by
  cases h with
  | absent =>
      cases rest with
      | nil => rfl
      | cons c rest => simp [fractionDigits, (hrest c rfl).2]
  | present hds => exact digits_append hds fun c hc => (hrest c hc).1

theorem exponentPart_append {text rest : List Char} {exponent : Option Exponent}
    (h : SpellsExponent text exponent) (hrest : EndsNumeral rest) :
    exponentPart (text ++ rest) = .ok (exponent, rest) := by
  have hdigit : ∀ c ∈ rest.head?, c.isDigit = false := fun c hc => (hrest c hc).1
  cases h with
  | absent =>
      cases rest with
      | nil => rfl
      | cons c rest =>
          obtain ⟨-, -, he, hE⟩ := hrest c rfl
          simp [exponentPart, he, hE]
  | plus he hds | minus he hds =>
      simp [exponentPart, he, digits_append hds hdigit, Except.map]
  | @unsigned e ds he hds =>
      have hdigits := digits_append hds hdigit
      cases ds with
      | nil => exact absurd rfl hds.1
      | cons d ds =>
          have hd := hds.2 d List.mem_cons_self
          have hplus : d ≠ '+' := by rintro rfl; cases hd
          have hminus : d ≠ '-' := by rintro rfl; cases hd
          rw [List.cons_append] at hdigits
          simp [exponentPart, he, hplus, hminus, hdigits, Except.map]

-- A sign in front of digits is the sign of the number.
theorem numeral_signed (negative : Bool) {whole : List Char} (text : List Char)
    (hfirst : ∃ d ds, whole = d :: ds ∧ d ≠ '-') :
    numeral ((if negative then ['-'] else []) ++ (whole ++ text)) =
      (do
        let (whole, text) ← wholeDigits (whole ++ text)
        let (fraction, text) ← fractionDigits text
        let (exponent, text) ← exponentPart text
        .ok (⟨negative, whole, fraction, exponent⟩, text)) := by
  obtain ⟨d, ds, rfl, hd⟩ := hfirst
  cases negative <;> simp [numeral, hd]

theorem numeral_append {text rest : List Char} {n : Numeral} (h : SpellsNumeral text n)
    (hrest : EndsNumeral rest) : numeral (text ++ rest) = .ok (n, rest) := by
  obtain ⟨fraction, exponent, rfl, hwhole, hzero, hfraction, hexponent⟩ := h
  obtain ⟨negative, whole, fractionDs, exponentDs⟩ := n
  dsimp only at hwhole hzero hfraction hexponent ⊢
  have hdot : ∀ c ∈ (exponent ++ rest).head?, c.isDigit = false ∧ c ≠ '.' := by
    intro c hc
    cases hexponent with
    | absent => exact ⟨(hrest c hc).1, (hrest c hc).2.1⟩
    | unsigned he _ | plus he _ | minus he _ =>
        simp only [List.cons_append, List.head?_cons, Option.mem_some_iff] at hc
        subst hc
        rcases he with rfl | rfl <;> decide
  have hdigit : ∀ c ∈ (fraction ++ (exponent ++ rest)).head?, c.isDigit = false := by
    intro c hc
    cases hfraction with
    | absent => exact (hdot c hc).1
    | present _ =>
        simp only [List.cons_append, List.head?_cons, Option.mem_some_iff] at hc
        subst hc
        decide
  have hfirst : ∃ d ds, whole = d :: ds ∧ d ≠ '-' := by
    cases whole with
    | nil => exact absurd rfl hwhole.1
    | cons d ds =>
        have hd := hwhole.2 d List.mem_cons_self
        exact ⟨d, ds, rfl, by rintro rfl; cases hd⟩
  have hsign := numeral_signed negative (fraction ++ (exponent ++ rest)) hfirst
  simp only [List.append_assoc]
  rw [hsign, wholeDigits_append hwhole hzero hdigit]
  simp only [bind, Except.bind]
  rw [fractionDigits_append hfraction hdot]
  simp only
  rw [exponentPart_append hexponent hrest]

theorem hexFour_append {digits : List Char} {n : Nat} (rest : List Char) (hlen : digits.length = 4)
    (h : hexNumber? digits = some n) : hexFour (digits ++ rest) = .ok (n, rest) := by
  match digits, hlen with
  | [a, b, c, d], _ => simp [hexFour, h]

theorem stringFrom_letter {e c : Char} (seen : List Char) (sound : Bool) (text : List Char)
    (h : escape? e = some c) :
    stringFrom seen sound ('\\' :: e :: text) = stringFrom (c :: seen) sound text := by
  have he : e ≠ 'u' := by rintro rfl; cases h
  rw [stringFrom]
  · simp [h]
  · exact he

theorem stringFrom_code {text after : List Char} {n : Nat} (seen : List Char) (sound : Bool)
    (h : hexFour text = .ok (n, after)) (hplain : n < 0xD800 ∨ 0xDFFF < n) :
    stringFrom seen sound ('\\' :: 'u' :: text) =
      stringFrom (Char.ofNat n :: seen) sound after := by
  have hhigh : ¬(0xD800 ≤ n ∧ n ≤ 0xDBFF) := by omega
  have hlow : ¬(0xDC00 ≤ n ∧ n ≤ 0xDFFF) := by omega
  rw [stringFrom]
  split
  · rename_i hfour
    cases h.symm.trans hfour
  · rename_i hfour
    cases h.symm.trans hfour
    simp [hhigh, hlow]

theorem stringFrom_codes {text between after : List Char} {high low : Nat} (seen : List Char)
    (sound : Bool) (h : hexFour text = .ok (high, between)) (hfirst : 0xD800 ≤ high)
    (hlast : high ≤ 0xDBFF) (hhalf : lowHalf? between = some (low, after)) :
    stringFrom seen sound ('\\' :: 'u' :: text) =
      stringFrom (Char.ofNat (0x10000 + (high - 0xD800) * 0x400 + (low - 0xDC00)) :: seen)
        sound after := by
  rw [stringFrom]
  split
  · rename_i hfour
    cases h.symm.trans hfour
  · rename_i hfour
    cases h.symm.trans hfour
    simp only [hfirst, hlast, decide_true, Bool.and_self, ite_true]
    split
    · rename_i hlow
      cases hhalf.symm.trans hlow
      rfl
    · rename_i hlow
      cases hhalf.symm.trans hlow

-- A string is read up to its closing quote, whatever was read before.
theorem stringFrom_append {text cs : List Char} (h : SpellsChars text cs) (seen : List Char)
    (sound : Bool) (rest : List Char) :
    stringFrom seen sound (text ++ '\x22' :: rest) =
      .ok (if sound then some (String.ofList (seen.reverse ++ cs)) else none, rest) := by
  induction h generalizing seen with
  | done => simp [stringFrom]
  | plain hquote hslash hcontrol _ ih =>
      simp [stringFrom, hquote, hslash, hcontrol, ih]
  | letter hescape _ ih =>
      rw [List.cons_append, List.cons_append, stringFrom_letter seen sound _ hescape, ih]
      simp
  | code hlen hnumber hplain _ ih =>
      rw [List.cons_append, List.cons_append, List.append_assoc,
        stringFrom_code seen sound (hexFour_append _ hlen hnumber) hplain, ih]
      simp
  | @codes front back text cs high low hfront hhigh hfirst hlast hback hlow hleast hmost _ ih =>
      have hhalf : lowHalf? ('\\' :: 'u' :: (back ++ (text ++ '\x22' :: rest))) =
          some (low, text ++ '\x22' :: rest) := by
        simp [lowHalf?, hexFour_append _ hback hlow, hleast, hmost]
      simp only [List.cons_append, List.append_assoc]
      rw [stringFrom_codes seen sound (hexFour_append _ hfront hhigh) hfirst hlast hhalf, ih]
      simp

theorem dropSpace_append {blank text : List Char} (hblank : Blank blank)
    (htext : ∀ c ∈ text.head?, isSpace c = false) : dropSpace (blank ++ text) = text := by
  rw [dropSpace, List.dropWhile_append_of_pos hblank]
  cases text with
  | nil => rfl
  | cons c text => simp [htext c rfl]

theorem key_append {text blank : List Char} {name : String} (h : SpellsString text name)
    (hblank : Blank blank) (rest : List Char) :
    key (text ++ (blank ++ ':' :: rest)) = .ok (some name, .ok rest) := by
  obtain ⟨inside, rfl, hinside⟩ := h
  have hcolon : dropSpace (blank ++ ':' :: rest) = ':' :: rest :=
    dropSpace_append hblank (by rintro c ⟨⟩; rfl)
  simp [key, stringFrom_append hinside [] true, hcolon]

-- The three ways on from an item or member.
theorem turn_first {close c : Char} {text rest : List Char} (htext : dropSpace text = c :: rest)
    (hclose : c ≠ close) : turn close true text = .goesOn (c :: rest) := by
  simp [turn, htext, hclose]

theorem turn_next {close c : Char} {text next rest : List Char}
    (htext : dropSpace text = ',' :: next) (hnext : dropSpace next = c :: rest)
    (hcomma : close ≠ ',') (hclose : c ≠ close) : turn close false text = .goesOn (c :: rest) := by
  simp [turn, htext, hnext, hcomma.symm, hclose]

theorem turn_end {close : Char} {first : Bool} {text rest : List Char}
    (htext : dropSpace text = close :: rest) : turn close first text = .ends rest := by
  simp [turn, htext]

theorem SpellsNumeral.head {text : List Char} {n : Numeral} (h : SpellsNumeral text n) :
    ∃ c rest, text = c :: rest ∧ (c = '-' ∨ c.isDigit = true) := by
  obtain ⟨fraction, exponent, rfl, hwhole, -⟩ := h
  obtain ⟨negative, whole, fractionDs, exponentDs⟩ := n
  cases negative with
  | true => exact ⟨_, _, rfl, Or.inl rfl⟩
  | false =>
      cases whole with
      | nil => exact absurd rfl hwhole.1
      | cons d ds => exact ⟨_, _, rfl, Or.inr (hwhole.2 d List.mem_cons_self)⟩

-- The first sign of a value, which ends no list or object.
theorem Spells.head {text : List Char} {node : Node} (h : Spells text node) :
    ∃ c rest, text = c :: rest ∧ isSpace c = false ∧ c ≠ ']' := by
  cases h with
  | num h =>
      obtain ⟨c, rest, rfl, hc⟩ := h.head
      refine ⟨c, rest, rfl, ?_, ?_⟩
      · rcases hc with rfl | hc
        · rfl
        · apply Bool.eq_false_iff.mpr
          intro hspace
          simp only [isSpace, Bool.or_eq_true, beq_iff_eq] at hspace
          rcases hspace with ((rfl | rfl) | rfl) | rfl <;> cases hc
      · rintro rfl
        rcases hc with hc | hc <;> cases hc
  | str h =>
      obtain ⟨inside, rfl, -⟩ := h
      exact ⟨_, _, rfl, by decide, by decide⟩
  | null | yes | no | emptyArr | arr | emptyObj | obj => exact ⟨_, _, rfl, by decide, by decide⟩

theorem SpellsKey.split {text : List Char} {name : String} (h : SpellsKey text name) :
    ∃ before inside after, text = before ++ '\x22' :: inside ++ after ++ [':'] ∧ Blank before ∧
      SpellsString ('\x22' :: inside) name ∧ Blank after := by
  obtain ⟨before, word, after, rfl, hbefore, ⟨inside, rfl, hinside⟩, hafter⟩ := h
  exact ⟨before, inside ++ ['\x22'], after, rfl, hbefore, ⟨inside, rfl, hinside⟩, hafter⟩

theorem value_scalar {fuel : Nat} {text found : List Char} (htext : dropSpace text = found)
    (harr : found.head? ≠ some '[') (hobj : found.head? ≠ some '{') :
    value (fuel + 1) text = scalar found := by
  rw [value, htext]
  split
  · exact absurd rfl harr
  · exact absurd rfl hobj
  · rfl

theorem scalar_num {text rest : List Char} {n : Numeral} (h : SpellsNumeral text n)
    (hrest : EndsNumeral rest) : scalar (text ++ rest) = (.num n, .ok rest) := by
  have hread := numeral_append h hrest
  obtain ⟨c, text, rfl, hc⟩ := h.head
  have hword : c ≠ 'n' ∧ c ≠ 't' ∧ c ≠ 'f' ∧ c ≠ '\x22' := by
    refine ⟨?_, ?_, ?_, ?_⟩ <;> rintro rfl <;> rcases hc with hc | hc <;> cases hc
  obtain ⟨hn, ht, hf, hquote⟩ := hword
  rw [List.cons_append] at hread ⊢
  rw [scalar]
  · simp [hc, hread, Reading.ofLeaf]
  · exact hn
  · exact ht
  · exact hf
  · exact hquote

theorem scalar_str {text : List Char} {s : String} (h : SpellsString text s) (rest : List Char) :
    scalar (text ++ rest) = (.str (some s), .ok rest) := by
  obtain ⟨inside, rfl, hinside⟩ := h
  simp [scalar, stringFrom_append hinside [] true, Reading.ofLeaf]

theorem scalar_word {word : List Char} {node : Node} (rest : List Char)
    (h : (word, node) ∈ [(['n', 'u', 'l', 'l'], Node.null), (['t', 'r', 'u', 'e'], .bool true),
      (['f', 'a', 'l', 's', 'e'], .bool false)]) :
    scalar (word ++ rest) = (node, .ok rest) := by
  simp only [List.mem_cons, List.not_mem_nil, or_false, Prod.mk.injEq] at h
  rcases h with ⟨rfl, rfl⟩ | ⟨rfl, rfl⟩ | ⟨rfl, rfl⟩ <;>
    simp [scalar, literal, after?, Reading.ofWord]

-- The comma in front of an item or member that is not the first.
def comma {α : Type} (done : List α) : List Char :=
  if done.isEmpty then [] else [',']

theorem blank_nil : Blank [] := nofun

theorem turn_goesOn {α : Type} {close c : Char} {blank before rest : List Char} (done : List α)
    (hblank : Blank blank) (hbefore : Blank before) (hc : isSpace c = false) (hclose : c ≠ close)
    (hcomma : close ≠ ',') :
    turn close done.isEmpty (blank ++ (comma done ++ (before ++ c :: rest))) =
      .goesOn (c :: rest) := by
  have hnext : dropSpace (before ++ c :: rest) = c :: rest :=
    dropSpace_append hbefore (by rintro d ⟨⟩; exact hc)
  cases done with
  | nil =>
      have hboth : Blank (blank ++ before) := fun d hd =>
        (List.mem_append.mp hd).elim (hblank d) (hbefore d)
      have htext : dropSpace (blank ++ (before ++ c :: rest)) = c :: rest := by
        rw [← List.append_assoc]
        exact dropSpace_append hboth (by rintro d ⟨⟩; exact hc)
      exact turn_first htext hclose
  | cons head tail =>
      have htext : dropSpace (blank ++ ',' :: (before ++ c :: rest)) =
          ',' :: (before ++ c :: rest) :=
        dropSpace_append hblank (by rintro d ⟨⟩; rfl)
      exact turn_next htext hnext hcomma hclose

theorem turn_ends {close : Char} {first : Bool} {blank rest : List Char} (hblank : Blank blank)
    (hclose : isSpace close = false) :
    turn close first (blank ++ close :: rest) = .ends rest :=
  turn_end (dropSpace_append hblank (by rintro d ⟨⟩; exact hclose))

theorem endsNumeral_append {blank rest : List Char} (hblank : Blank blank)
    (hrest : EndsNumeral rest) : EndsNumeral (blank ++ rest) := by
  cases blank with
  | nil => exact hrest
  | cons b blank =>
      have hspace := hblank b List.mem_cons_self
      simp only [isSpace, Bool.or_eq_true, beq_iff_eq] at hspace
      rintro d ⟨⟩
      rcases hspace with ((rfl | rfl) | rfl) | rfl <;> decide

mutual

-- A text is read as the tree it spells. Two steps for each character are enough, for each bracket
-- and each comma takes one and so does each value.
theorem value_of_spells {text : List Char} {node : Node} (h : Spells text node) (fuel : Nat)
    (blank rest : List Char) (hblank : Blank blank) (hrest : EndsNumeral rest)
    (hfuel : 2 * text.length ≤ fuel) : value fuel (blank ++ (text ++ rest)) = (node, .ok rest) := by
  obtain ⟨c, tail, htext, hc, -⟩ := h.head
  have hdrop : dropSpace (blank ++ (text ++ rest)) = text ++ rest :=
    dropSpace_append hblank (by rw [htext]; rintro d ⟨⟩; exact hc)
  match fuel, h with
  | 0, _ => simp [htext] at hfuel
  | fuel + 1, .null =>
      rw [value_scalar hdrop (by simp) (by simp)]
      exact scalar_word rest (by simp)
  | fuel + 1, .yes =>
      rw [value_scalar hdrop (by simp) (by simp)]
      exact scalar_word rest (by simp)
  | fuel + 1, .no =>
      rw [value_scalar hdrop (by simp) (by simp)]
      exact scalar_word rest (by simp)
  | fuel + 1, .num hnumeral =>
      have hlead : ∀ d, d ≠ '-' → d.isDigit = false → (text ++ rest).head? ≠ some d := by
        obtain ⟨e, _, rfl, he⟩ := hnumeral.head
        rintro d hminus hdigit ⟨⟩
        rcases he with he | he
        · exact hminus he
        · rw [he] at hdigit
          cases hdigit
      rw [value_scalar hdrop (hlead _ (by decide) (by decide)) (hlead _ (by decide) (by decide))]
      exact scalar_num hnumeral hrest
  | fuel + 1, .str hstring =>
      have hread := scalar_str hstring rest
      obtain ⟨inside, rfl, -⟩ := hstring
      rw [value_scalar hdrop (by simp) (by simp), hread]
  | fuel + 1, .emptyArr hinner =>
      simp only [List.length_cons, List.length_append, List.length_nil] at hfuel
      obtain ⟨fuel, rfl⟩ := Nat.exists_eq_add_one.mpr (show 0 < fuel by omega)
      rw [value, hdrop]
      simp only [List.cons_append, List.append_assoc, List.nil_append, items,
        turn_ends hinner (show isSpace ']' = false from rfl), List.reverse_nil]
  | fuel + 1, .arr hitems =>
      simp only [List.length_cons, List.length_append, List.length_nil] at hfuel
      rw [value, hdrop]
      simp only [List.cons_append, List.append_assoc, List.nil_append]
      exact items_of_spells hitems fuel [] [] rest blank_nil (by omega)
  | fuel + 1, .emptyObj hinner =>
      simp only [List.length_cons, List.length_append, List.length_nil] at hfuel
      obtain ⟨fuel, rfl⟩ := Nat.exists_eq_add_one.mpr (show 0 < fuel by omega)
      rw [value, hdrop]
      simp only [List.cons_append, List.append_assoc, List.nil_append, members,
        turn_ends hinner (show isSpace '}' = false from rfl), List.reverse_nil]
  | fuel + 1, .obj hmembers =>
      simp only [List.length_cons, List.length_append, List.length_nil] at hfuel
      rw [value, hdrop]
      simp only [List.cons_append, List.append_assoc, List.nil_append]
      exact members_of_spells hmembers fuel [] [] rest blank_nil (by omega)

theorem items_of_spells {text : List Char} {nodes : List Node} (h : SpellsItems text nodes)
    (fuel : Nat) (done : List Node) (blank rest : List Char) (hblank : Blank blank)
    (hfuel : 2 * text.length + 1 ≤ fuel) :
    items fuel done (blank ++ (comma done ++ (text ++ ']' :: rest))) =
      (.arr (done.reverse ++ nodes) .closed, .ok rest) := by
  match fuel, h with
  | fuel + 1, @SpellsItems.last _ _ after _ hbefore hnode hafter =>
      obtain ⟨c, tail, rfl, hc, hclose⟩ := hnode.head
      simp only [List.length_cons, List.length_append] at hfuel
      obtain ⟨fuel, rfl⟩ := Nat.exists_eq_add_one.mpr (show 0 < fuel by omega)
      have hread := value_of_spells hnode (fuel + 1) [] (after ++ ']' :: rest) blank_nil
        (endsNumeral_append hafter (by rintro d ⟨⟩; decide)) (by simp; omega)
      simp only [List.append_assoc, List.cons_append, List.nil_append] at hread ⊢
      rw [items, turn_goesOn done hblank hbefore hc hclose (by decide)]
      simp only [hread, items, turn_ends hafter (show isSpace ']' = false from rfl)]
      simp
  | fuel + 1, @SpellsItems.next _ _ after more node _ hbefore hnode hafter hmore =>
      obtain ⟨c, tail, rfl, hc, hclose⟩ := hnode.head
      simp only [List.length_cons, List.length_append] at hfuel
      have hread := value_of_spells hnode fuel [] (after ++ ',' :: (more ++ ']' :: rest)) blank_nil
        (endsNumeral_append hafter (by rintro d ⟨⟩; decide)) (by simp; omega)
      have hitems := items_of_spells hmore fuel (node :: done) after rest hafter (by omega)
      simp only [List.append_assoc, List.cons_append, List.nil_append] at hread ⊢
      rw [items, turn_goesOn done hblank hbefore hc hclose (by decide)]
      simp only [hread]
      refine hitems.trans ?_
      simp

theorem members_of_spells {text : List Char} {nodes : List (Option String × Node)}
    (h : SpellsMembers text nodes) (fuel : Nat) (done : List (Option String × Node))
    (blank rest : List Char) (hblank : Blank blank) (hfuel : 2 * text.length + 1 ≤ fuel) :
    members fuel done (blank ++ (comma done ++ (text ++ '}' :: rest))) =
      (.obj (done.reverse ++ nodes) .closed, .ok rest) := by
  match fuel, h with
  | fuel + 1, @SpellsMembers.last _ before _ after _ _ hkey hbefore hnode hafter =>
      obtain ⟨front, inside, back, rfl, hfront, hname, hback⟩ := hkey.split
      obtain ⟨c, tail, rfl, -, -⟩ := hnode.head
      simp only [List.length_cons, List.length_append] at hfuel
      obtain ⟨fuel, rfl⟩ := Nat.exists_eq_add_one.mpr (show 0 < fuel by omega)
      have hread := value_of_spells hnode (fuel + 1) before (after ++ '}' :: rest) hbefore
        (endsNumeral_append hafter (by rintro d ⟨⟩; decide)) (by simp; omega)
      have hcolon := key_append hname hback (before ++ (c :: tail ++ (after ++ '}' :: rest)))
      simp only [List.append_assoc, List.cons_append, List.nil_append] at hread hcolon ⊢
      rw [members, turn_goesOn done hblank hfront (by decide) (by decide) (by decide)]
      simp only [hcolon, hread, members, turn_ends hafter (show isSpace '}' = false from rfl)]
      simp
  | fuel + 1, @SpellsMembers.next _ before text after more name node _ hkey hbefore hnode hafter
      hmore =>
      obtain ⟨front, inside, back, rfl, hfront, hname, hback⟩ := hkey.split
      simp only [List.length_cons, List.length_append] at hfuel
      have hread := value_of_spells hnode fuel before (after ++ ',' :: (more ++ '}' :: rest)) hbefore
        (endsNumeral_append hafter (by rintro d ⟨⟩; decide)) (by omega)
      have hmembers := members_of_spells hmore fuel ((some name, node) :: done) after rest hafter
        (by omega)
      have hcolon := key_append hname hback (before ++ (text ++ (after ++ ',' :: (more ++ '}' :: rest))))
      simp only [List.append_assoc, List.cons_append, List.nil_append] at hread hcolon ⊢
      rw [members, turn_goesOn done hblank hfront (by decide) (by decide) (by decide)]
      simp only [hcolon, hread]
      refine hmembers.trans ?_
      simp

end

-- Blanks may stand around a whole text.
theorem read_of_spells {text before after : List Char} {node : Node} (h : Spells text node)
    (hbefore : Blank before) (hafter : Blank after) :
    Document.read (before ++ text ++ after) = ⟨node, true⟩ := by
  have hends : EndsNumeral (after ++ []) := endsNumeral_append hafter nofun
  have hdrop : dropSpace (after ++ []) = [] := dropSpace_append hafter nofun
  have hread := value_of_spells h (2 * (before ++ text ++ after).length + 2) before (after ++ [])
    hbefore hends (by simp; omega)
  rw [List.append_nil] at hread hdrop
  rw [← List.append_assoc] at hread
  simp only [Document.read, hread, hdrop, List.isEmpty_nil]

end TypeAtlas.Json
