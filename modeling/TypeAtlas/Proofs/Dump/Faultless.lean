import TypeAtlas.Proofs.Dump.BraceScan

namespace TypeAtlas.Dump

open Text

section

variable {bytes : List UInt8} {i : Nat} {c : Char} {text : List Char}

theorem isBoundary_of_stands (h : Stands bytes i text) : isBoundary bytes i = true := by
  rw [isBoundary, Bool.or_eq_true, Bool.or_eq_true]
  cases text with
  | nil => exact .inl (.inr (beq_iff_eq.mpr h.length_eq_of_nil.symm))
  | cons c text =>
      obtain ⟨b, more, hc, hfirst⟩ := first_utf8EncodeChar c
      have hbyte := h.getElem? 0
      rw [Nat.add_zero, encode_cons, hc, List.cons_append, List.getElem?_cons_zero] at hbyte
      right
      rw [hbyte]
      simpa using hfirst

-- What stands between two characters of a text can be cut out.
theorem slice_of_stands {inner : List Char} (h : Stands bytes i (inner ++ text)) :
    slice bytes i (i + byteSize inner) = .ok (encode inner) := by
  have hstart := isBoundary_of_stands h
  have hstop := isBoundary_of_stands h.append
  rw [slice, if_pos ⟨Nat.le_add_right _ _, hstart, hstop⟩, h.drop_eq, encode_append,
    Nat.add_sub_cancel_left, List.take_left' (length_encode inner)]

theorem isLayout_iff : isLayout c = true ↔ c ∈ layoutChars := by
  simp [isLayout, layoutChars, or_assoc]

theorem ascii_of_layout : ∀ c ∈ layoutChars, c.toNat < 0x80 := by
  decide

theorem isLayoutAt_iff (h : Stands bytes i (c :: text)) :
    isLayoutAt bytes i = true ↔ isLayout c = true := by
  rw [isLayout_iff, isLayoutAt, List.any_eq_true]
  constructor
  · rintro ⟨d, hd, hbyte⟩
    cases (h.byte_iff (ascii_of_layout d hd)).mp (beq_iff_eq.mp hbyte)
    exact hd
  · intro hc
    exact ⟨c, hc, beq_iff_eq.mpr ((h.byte_iff (ascii_of_layout c hc)).mpr rfl)⟩

theorem passes_bodyLoop (bytes : List UInt8) : Passes bytes fun j => (bodyLoop bytes).run j true := by
  intro j b hb hhigh
  have hopening := ne_of_high (d := '{') hb hhigh (by decide)
  have hslash := ne_of_high (d := '/') hb hhigh (by decide)
  have hend := ne_of_high (d := ';') hb hhigh (by decide)
  have hclosing := ne_of_high (d := '}') hb hhigh (by decide)
  have hbreak := ne_of_high (d := '\n') hb hhigh (by decide)
  have hlt := (List.getElem?_eq_some_iff.mp hb).1
  have hturn : bodyTurn bytes j true = .ok (.moves (j + 1) true) := by
    rw [bodyTurn, if_neg hopening, if_neg fun hpair => hslash hpair.1,
      if_neg (not_or.mpr ⟨hend, hclosing⟩), if_neg hbreak, if_pos hlt, Bool.or_true, if_pos rfl]
  exact Loop.run_moves hturn

-- Where the scanner stands while a text is read: at the text, or, in a comment, at the end of its line.
def standsAt (comment : Bool) (i : Nat) (text : List Char) : Nat :=
  if comment then i + byteSize (text.takeWhile (· != '\n')) else i

theorem bodyTurn_of_plain (h : Stands bytes i (c :: text))
    (hslash : ∀ tail, c = '/' → text = '/' :: tail → False) (hbrace : c ≠ '{') (onLine : Bool) :
    bodyTurn bytes i onLine =
      if c = ';' || c = '}' then .ok (.ends none)
      else if c = '\n' then .ok (.moves (i + 1) false)
      else if isLayout c || onLine then .ok (.moves (i + 1) onLine)
      else .ok (.ends none) := by
  have hslashes := (h.two_bytes?_iff (by decide) (by decide)).not.mpr (not_prefix_pair hslash)
  have hopening := (h.byte_iff (by decide)).not.mpr hbrace
  have hlayout : isLayoutAt bytes i = isLayout c := Bool.eq_iff_iff.mpr (isLayoutAt_iff h)
  have hend : (';' : Char).toNat < 0x80 := by decide
  have hclosing : ('}' : Char).toNat < 0x80 := by decide
  have hbreak : ('\n' : Char).toNat < 0x80 := by decide
  rw [bodyTurn, if_neg hopening, if_neg hslashes, if_pos h.lt, hlayout]
  simp only [h.byte_iff hend, h.byte_iff hclosing, h.byte_iff hbreak, Bool.or_eq_true,
    decide_eq_true_eq]

theorem bodyTurn_of_block (h : Stands bytes i ('{' :: text)) (onLine : Bool) :
    bodyTurn bytes i onLine = .ok (.ends ((enclosed? text).map fun block => encode block.1)) := by
  have hbyte := (h.byte_iff (d := '{') (by decide)).mpr rfl
  rw [bodyTurn, if_pos hbyte, closingPlace_of_stands h]
  cases hblock : enclosed? text with
  | none => rfl
  | some block =>
      obtain ⟨body, below⟩ := block
      have hinner : Stands bytes (i + 1) (body ++ '}' :: below) := by
        have hnext := h.next
        rwa [show text = body ++ '}' :: below from eq_of_enclosedFrom hblock] at hnext
      have hslice := slice_of_stands hinner
      show (slice bytes (i + 1) (i + 1 + byteSize body)).map _ = _
      rw [hslice]
      rfl

theorem standsAt_break (comment : Bool) (rest : List Char) : standsAt comment i ('\n' :: rest) = i := by
  cases comment <;> rfl

theorem standsAt_comment (hc : c ≠ '\n') (rest : List Char) :
    standsAt true i (c :: rest) = standsAt true (i + c.utf8Size) rest := by
  have hgoes : (c != '\n') = true := bne_iff_ne.mpr hc
  rw [standsAt, standsAt, if_pos rfl, if_pos rfl, List.takeWhile_cons, if_pos hgoes, byteSize_cons,
    Nat.add_assoc]

-- The scanner passes over a line comment in one turn, and over anything else of a header's line byte by
-- byte.
theorem run_bodyLoop (h : Stands bytes i text) (below comment : Bool) :
    (bodyLoop bytes).run (standsAt comment i text) (!below) =
      .ok ((bodyFrom? below comment text).map encode) := by
  fun_induction bodyFrom? below comment text generalizing i with
  | case1 below comment =>
      have hplace : standsAt comment i [] = i := by
        cases comment <;> rfl
      rw [hplace, Loop.run_past (Nat.le_of_eq h.length_eq_of_nil)]
      rfl
  | case2 below comment rest ih =>
      have hslashes : ['/', '/'] <+: '/' :: '/' :: rest := List.prefix_append ['/', '/'] rest
      have hpair := (h.two_bytes?_iff (d := '/') (e := '/') (by decide) (by decide)).mpr hslashes
      have hbehind := ih h.next.next
      rw [← standsAt_comment (by decide), ← standsAt_comment (by decide)] at hbehind
      rw [← hbehind]
      cases comment with
      | true => rfl
      | false =>
          have hopening : bytes[i]? ≠ some '{'.toUInt8 := by
            rw [hpair.1]
            decide
          have hturn : bodyTurn bytes i (!below) =
              .ok (.moves (standsAt true i ('/' :: '/' :: rest)) (!below)) := by
            rw [bodyTurn, if_neg hopening, if_pos hpair, lineEnd_of_stands h]
            rfl
          exact Loop.run_moves hturn
  | case3 below comment rest hslash ih =>
      have hturn : bodyTurn bytes i (!below) = .ok (.moves (i + 1) false) := by
        rw [bodyTurn_of_plain h hslash (by decide), if_neg (by decide), if_pos rfl]
      rw [standsAt_break, Loop.run_moves hturn]
      exact ih h.next
  | case4 below c rest hslash hbreak ih =>
      rw [standsAt_comment hbreak]
      exact ih h.next
  | case5 below comment rest hcomment hslash hbreak =>
      rw [standsAt, if_neg hcomment, Loop.run_ends h.lt (bodyTurn_of_block h (!below)), Option.map_map]
      rfl
  | case6 below comment c rest hslash hbreak hcomment hbrace hend =>
      have hturn : bodyTurn bytes i (!below) = .ok (.ends none) := by
        rw [bodyTurn_of_plain h hslash hbrace, if_pos hend]
      rw [standsAt, if_neg hcomment, Loop.run_ends h.lt hturn]
      rfl
  | case7 below comment c rest hslash hbreak hcomment hbrace hend hskip ih =>
      have hturn : bodyTurn bytes i (!below) = .ok (.moves (i + 1) (!below)) := by
        rw [bodyTurn_of_plain h hslash hbrace, if_neg hend, if_neg hbreak,
          if_pos hskip]
      have hplace : (bodyLoop bytes).run (i + 1) (!below) =
          (bodyLoop bytes).run (i + c.utf8Size) (!below) := by
        cases below with
        | false => exact h.pass_first (passes_bodyLoop bytes)
        | true =>
            have hlayout : isLayout c = true := by simpa using hskip
            rw [utf8Size_of_ascii (ascii_of_layout c (isLayout_iff.mp hlayout))]
      rw [standsAt, if_neg hcomment, Loop.run_moves hturn, hplace]
      exact ih h.next
  | case8 below comment c rest hslash hbreak hcomment hbrace hend hskip =>
      have hturn : bodyTurn bytes i (!below) = .ok (.ends none) := by
        rw [bodyTurn_of_plain h hslash hbrace, if_neg hend, if_neg hbreak,
          if_neg hskip]
      rw [standsAt, if_neg hcomment, Loop.run_ends h.lt hturn]
      rfl

theorem bodyBehind_of_stands (h : Stands bytes i text) :
    bodyBehind bytes i = .ok ((body? text).map encode) :=
  run_bodyLoop h false false

end

-- From any place on, within a character or past the end, the scanner reads the text that begins at the
-- next character.
theorem bodyBehind_eq (text : List Char) (offset : Nat) :
    bodyBehind (encode text) offset = .ok ((body? (charsFrom offset text)).map encode) := by
  have hstands : Stands (encode text) 0 text := stands_encode [] text
  obtain ⟨j, hj, hplace⟩ := hstands.exists_place offset
  have hend (k : Nat) (hk : (encode text).length ≤ k) :
      bodyBehind (encode text) k = bodyBehind (encode text) (encode text).length := by
    rw [bodyBehind, bodyBehind, Loop.run_past hk, Loop.run_past (Nat.le_refl _)]
  have hsame := hplace (passes_bodyLoop (encode text)) hend
  rw [Nat.zero_add] at hsame
  exact hsame.trans (bodyBehind_of_stands hj)

-- The scan for the block of a header begins at a place of the whole text.
theorem bodyBehind_header {text line rest : List Char} {header : Header} (hline : line ∈ lineStarts text)
    (hheader : Header.read? line = some (header, rest)) :
    ∃ offset, dropBytes? offset text = some rest ∧
      bodyBehind (encode text) offset = .ok ((body? rest).map encode) := by
  obtain ⟨front, rfl⟩ := (Header.read?_suffix hheader).trans (suffix_of_mem_lineStarts hline)
  have hdrop : dropBytes? (byteSize front) (front ++ rest) = some rest :=
    dropBytes?_eq_some_iff.mpr ⟨front, rfl, rfl⟩
  refine ⟨byteSize front, hdrop, ?_⟩
  rw [bodyBehind_eq, charsFrom_of_dropBytes? hdrop]

theorem exists_slice {text : List Char} {d : Declaration} (h : d ∈ (Index.scan text).declarations) :
    ∃ start, slice (encode text) start (start + byteSize d.body) = .ok (encode d.body) := by
  obtain ⟨above, below, rfl, -⟩ := exists_match_of_mem h
  have hbody : Stands (encode (above ++ '{' :: (d.body ++ '}' :: below))) (byteSize above + 1)
      (d.body ++ '}' :: below) := (stands_encode above _).next
  exact ⟨byteSize above + 1, slice_of_stands hbody⟩

-- That the scanners of a text go forward, stay within its bytes, and meet no fault wherever they begin.
structure Faultless (text : List Char) : Prop where
  jumps : JumpsForward (encode text)
  braceTurns : Advances (encode text).length (braceTurn (encode text))
  bodyTurns : Advances (encode text).length (bodyTurn (encode text))
  depthTurns : Advances (encode text).length (depthTurn (encode text))
  -- A closing brace is met at a depth of one at least, and no depth is more than the bytes passed.
  braceDepths : ∀ opening i depth, (encode text)[opening]? = some '{'.toUInt8 →
    (braceLoop (encode text)).Reaches opening 0 i depth →
      depth ≤ i ∧ ((encode text)[i]? = some '}'.toUInt8 → 0 < depth)
  lineDepths : ∀ i depth, (depthLoop (encode text)).Reaches 0 0 i depth → depth.natAbs ≤ i
  closing : ∀ offset, closingPlace (encode text) offset = .ok (matchingBrace? text offset)
  body : ∀ offset,
    bodyBehind (encode text) offset = .ok ((body? (charsFrom offset text)).map encode)
  -- A depth is only asked for of a line.
  depth : ∃ depth, depthOf (encode text) = .ok depth ∧ ('\n' ∉ text → depth = balance text)
  header : ∀ line ∈ lineStarts text, ∀ header rest, Header.read? line = some (header, rest) →
    ∃ offset, dropBytes? offset text = some rest ∧
      bodyBehind (encode text) offset = .ok ((body? rest).map encode)
  cut : ∀ d ∈ (Index.scan text).declarations,
    ∃ start, slice (encode text) start (start + byteSize d.body) = .ok (encode d.body)

theorem faultless (text : List Char) : Faultless text where
  jumps := jumpsForward (encode text)
  braceTurns := advances_braceTurn (encode text)
  bodyTurns := advances_bodyTurn (encode text)
  depthTurns := advances_depthTurn (encode text)
  braceDepths opening i depth hopening hreaches := by
    obtain ⟨hdepth, hplace⟩ := depth_of_reaches hopening hreaches
    refine ⟨hdepth, fun hclosing => Nat.pos_of_ne_zero fun hnone => ?_⟩
    rw [hplace hnone, hopening] at hclosing
    cases hclosing
  lineDepths _ _ hreaches := natAbs_of_reaches hreaches
  closing := closingPlace_eq text
  body := bodyBehind_eq text
  depth := by
    obtain ⟨depth, hdepth⟩ := exists_depthOf (encode text)
    refine ⟨depth, hdepth, fun hbreak => ?_⟩
    cases hdepth.symm.trans (depthOf_eq hbreak)
    rfl
  header _ hline _ _ hheader := bodyBehind_header hline hheader
  cut _ hlisted := exists_slice hlisted

end TypeAtlas.Dump
