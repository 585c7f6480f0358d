import TypeAtlas.Proofs.Dump.Jump
import TypeAtlas.Proofs.Dump.LineDepth

namespace TypeAtlas.Dump

open Text

-- What a turn of a loop over bytes comes to.
inductive Turn (σ α : Type)
  | moves (place : Nat) (state : σ)
  | ends (result : α)

section

variable {σ α : Type} {size : Nat}

-- That each turn that moves goes forward, and no further than the end.
def Advances (size : Nat) (turn : Nat → σ → Except Fault (Turn σ α)) : Prop :=
  ∀ i state next after, turn i state = .ok (.moves next after) → i < next ∧ next ≤ size

-- A loop over so many bytes, which comes to a result of its own at their end.
structure Loop (size : Nat) (σ α : Type) where
  turn : Nat → σ → Except Fault (Turn σ α)
  atEnd : σ → α
  advances : Advances size turn

namespace Loop

-- The loop ends because its turns advance.
def run (loop : Loop size σ α) (i : Nat) (state : σ) : Except Fault α :=
  if i < size then
    match _h : loop.turn i state with
    | .error fault => .error fault
    | .ok (.ends result) => .ok result
    | .ok (.moves next after) => loop.run next after
  else .ok (loop.atEnd state)
termination_by size - i
decreasing_by
  have hforward := loop.advances i state next after _h
  omega

variable {loop : Loop size σ α} {i : Nat} {state : σ}

theorem run_past (h : size ≤ i) : loop.run i state = .ok (loop.atEnd state) := by
  rw [run, if_neg (Nat.not_lt_of_le h)]

-- What a run does with a turn, without the proof that the turn advances.
theorem run_turn (hi : i < size) :
    loop.run i state =
      match loop.turn i state with
      | .error fault => .error fault
      | .ok (.ends result) => .ok result
      | .ok (.moves next after) => loop.run next after := by
  rw [run, if_pos hi]
  split
  · rename_i hturn
    rw [hturn]
  · rename_i hturn
    rw [hturn]
  · rename_i hturn
    rw [hturn]

theorem run_ends (hi : i < size) {result : α} (h : loop.turn i state = .ok (.ends result)) :
    loop.run i state = .ok result := by
  rw [run_turn hi, h]

theorem run_moves {next : Nat} {after : σ} (h : loop.turn i state = .ok (.moves next after)) :
    loop.run i state = loop.run next after := by
  have hforward := loop.advances i state next after h
  have hi : i < size := Nat.lt_of_lt_of_le hforward.1 hforward.2
  rw [run_turn hi, h]

-- A loop whose turns all come to something comes to a result.
theorem exists_run_eq_ok (hturn : ∀ i state, i < size → ∃ turn, loop.turn i state = .ok turn) (i : Nat)
    (state : σ) : ∃ result, loop.run i state = .ok result := by
  fun_induction run loop i state with
  | case1 i state hi fault h =>
      obtain ⟨turn, hok⟩ := hturn i state hi
      cases h.symm.trans hok
  | case2 i state hi result => exact ⟨result, rfl⟩
  | case3 i state hi next after h ih => exact ih
  | case4 i state => exact ⟨_, rfl⟩

-- The places and states that a run comes by.
inductive Reaches (loop : Loop size σ α) (start : Nat) (first : σ) : Nat → σ → Prop
  | start : Reaches loop start first start first
  | move {i next : Nat} {state after : σ} : Reaches loop start first i state →
      loop.turn i state = .ok (.moves next after) → Reaches loop start first next after

end Loop

end

-- Where a scanner goes from a byte that is no brace and begins no line comment.
def skip (bytes : List UInt8) (i : Nat) : Except Fault Nat :=
  if bytes[i]? = some '/'.toUInt8 ∧ bytes[i + 1]? = some '*'.toUInt8 then
    .ok (blockCommentEnd bytes i)
  else if bytes[i]? = some '\x22'.toUInt8 ∨ bytes[i]? = some '\x27'.toUInt8 then literalEnd bytes i
  else if i < bytes.length then .ok (i + 1)
  else .error .outside

-- A turn at a place of code, given what a brace there and a line comment there come to.
def codeTurn {σ α : Type} (bytes : List UInt8) (i : Nat) (state : σ)
    (atBrace : Brace → Except Fault (Turn σ α)) (atComment : Except Fault (Turn σ α)) :
    Except Fault (Turn σ α) :=
  if bytes[i]? = some '{'.toUInt8 then atBrace .opening
  else if bytes[i]? = some '}'.toUInt8 then atBrace .closing
  else if bytes[i]? = some '/'.toUInt8 ∧ bytes[i + 1]? = some '/'.toUInt8 then atComment
  else (skip bytes i).map (.moves · state)

-- What a brace comes to at a depth. The one that brings the depth to zero is looked for.
def braceAt (i : Nat) : Nat → Brace → Except Fault (Turn Nat (Option Nat))
  | depth, .opening => .ok (.moves (i + 1) (depth + 1))
  | 0, .closing => .error .belowZero
  | 1, .closing => .ok (.ends (some i))
  | outer + 2, .closing => .ok (.moves (i + 1) (outer + 1))

def braceTurn (bytes : List UInt8) (i depth : Nat) : Except Fault (Turn Nat (Option Nat)) :=
  codeTurn bytes i depth (braceAt i depth) ((lineEnd bytes i).map (.moves · depth))

def depthAt (i : Nat) (depth : Int) (brace : Brace) : Except Fault (Turn Int Int) :=
  .ok (.moves (i + 1) (depth + Brace.step (some brace)))

def depthTurn (bytes : List UInt8) (i : Nat) (depth : Int) : Except Fault (Turn Int Int) :=
  codeTurn bytes i depth (depthAt i depth) (.ok (.ends depth))

theorem map_eq_ok_iff {ε α β : Type} {f : α → β} {x : Except ε α} {b : β} :
    x.map f = .ok b ↔ ∃ a, x = .ok a ∧ f a = b := by
  cases x with
  | error fault => simp [Except.map]
  | ok a => simp [Except.map]

section

variable (bytes : List UInt8)

theorem succ_bounds {i : Nat} {c : Char} (h : bytes[i]? = some c.toUInt8) :
    i < i + 1 ∧ i + 1 ≤ bytes.length :=
  ⟨Nat.lt_succ_self i, (List.getElem?_eq_some_iff.mp h).1⟩

theorem skip_bounds {i next : Nat} (h : skip bytes i = .ok next) : i < next ∧ next ≤ bytes.length := by
  rw [skip] at h
  split at h
  · rename_i hcomment
    cases h
    exact (jumpsForward bytes).comment i hcomment.1 hcomment.2
  · split at h
    · rename_i hquote
      have hlt : i < bytes.length := by
        rcases hquote with hquote | hquote
        · exact (succ_bounds bytes hquote).2
        · exact (succ_bounds bytes hquote).2
      obtain ⟨stop, hstop, hbounds⟩ := (jumpsForward bytes).literal i hlt
      cases hstop.symm.trans h
      exact hbounds
    · split at h
      · rename_i hlt
        cases h
        exact ⟨Nat.lt_succ_self i, hlt⟩
      · cases h

theorem lineEnd_bounds {i stop : Nat} (hslash : bytes[i]? = some '/'.toUInt8)
    (h : lineEnd bytes i = .ok stop) : i < stop ∧ stop ≤ bytes.length := by
  obtain ⟨stop', hstop, hbounds⟩ := (jumpsForward bytes).line i hslash
  cases hstop.symm.trans h
  exact hbounds

-- A turn that moves does so at a brace, at a comment, or by what is skipped.
theorem codeTurn_cases {σ α : Type} {i next : Nat} {state after : σ}
    {atBrace : Brace → Except Fault (Turn σ α)} {atComment : Except Fault (Turn σ α)}
    (h : codeTurn bytes i state atBrace atComment = .ok (.moves next after)) :
    (∃ brace : Brace, bytes[i]? = some brace.char.toUInt8 ∧ atBrace brace = .ok (.moves next after)) ∨
      (bytes[i]? = some '/'.toUInt8 ∧ atComment = .ok (.moves next after)) ∨
      (bytes[i]? ≠ some '{'.toUInt8 ∧ skip bytes i = .ok next ∧ after = state) := by
  rw [codeTurn] at h
  split at h
  · rename_i hopening
    exact .inl ⟨.opening, hopening, h⟩
  · rename_i hopening
    split at h
    · rename_i hclosing
      exact .inl ⟨.closing, hclosing, h⟩
    · split at h
      · rename_i hslashes
        exact .inr (.inl ⟨hslashes.1, h⟩)
      · obtain ⟨stop, hstop, heq⟩ := map_eq_ok_iff.mp h
        cases heq
        exact .inr (.inr ⟨hopening, hstop, rfl⟩)

theorem braceAt_moves {i depth next after : Nat} {brace : Brace}
    (h : braceAt i depth brace = .ok (.moves next after)) :
    next = i + 1 ∧ after ≤ depth + 1 ∧ after ≠ 0 := by
  fun_cases braceAt i depth brace with
  | case1 depth =>
      cases h
      omega
  | case2 => cases h
  | case3 => cases h
  | case4 outer =>
      cases h
      omega

theorem braceTurn_moves {i depth next after : Nat}
    (h : braceTurn bytes i depth = .ok (.moves next after)) :
    (i < next ∧ next ≤ bytes.length) ∧ after ≤ depth + 1 ∧
      (after = 0 → depth = 0 ∧ bytes[i]? ≠ some '{'.toUInt8) := by
  rcases codeTurn_cases bytes h with ⟨brace, hbyte, hbrace⟩ | ⟨hslash, hcomment⟩ | ⟨hno, hskip, rfl⟩
  · obtain ⟨rfl, hdepth, hafter⟩ := braceAt_moves hbrace
    exact ⟨succ_bounds bytes hbyte, hdepth, fun hzero => absurd hzero hafter⟩
  · obtain ⟨stop, hstop, heq⟩ := map_eq_ok_iff.mp hcomment
    cases heq
    refine ⟨lineEnd_bounds bytes hslash hstop, Nat.le_succ depth, fun hzero => ⟨hzero, ?_⟩⟩
    rw [hslash]
    decide
  · exact ⟨skip_bounds bytes hskip, Nat.le_succ after, fun hzero => ⟨hzero, hno⟩⟩

theorem advances_braceTurn : Advances bytes.length (braceTurn bytes) :=
  fun _ _ _ _ h => (braceTurn_moves bytes h).1

theorem depthTurn_moves {i next : Nat} {depth after : Int}
    (h : depthTurn bytes i depth = .ok (.moves next after)) :
    (i < next ∧ next ≤ bytes.length) ∧ (after - depth).natAbs ≤ 1 := by
  rcases codeTurn_cases bytes h with ⟨brace, hbyte, hbrace⟩ | ⟨-, hcomment⟩ | ⟨-, hskip, rfl⟩
  · cases hbrace
    refine ⟨succ_bounds bytes hbyte, ?_⟩
    cases brace <;> simp only [Brace.step] <;> omega
  · cases hcomment
  · exact ⟨skip_bounds bytes hskip, by omega⟩

theorem advances_depthTurn : Advances bytes.length (depthTurn bytes) :=
  fun _ _ _ _ h => (depthTurn_moves bytes h).1

end

def braceLoop (bytes : List UInt8) : Loop bytes.length Nat (Option Nat) where
  turn := braceTurn bytes
  atEnd _ := none
  advances := advances_braceTurn bytes

theorem braceLoop_turn (bytes : List UInt8) (i depth : Nat) :
    (braceLoop bytes).turn i depth =
      codeTurn bytes i depth (braceAt i depth) ((lineEnd bytes i).map (.moves · depth)) := rfl

def depthLoop (bytes : List UInt8) : Loop bytes.length Int Int where
  turn := depthTurn bytes
  atEnd depth := depth
  advances := advances_depthTurn bytes

theorem depthLoop_turn (bytes : List UInt8) (i : Nat) (depth : Int) :
    (depthLoop bytes).turn i depth = codeTurn bytes i depth (depthAt i depth) (.ok (.ends depth)) := rfl

section

variable {bytes : List UInt8} {i : Nat}

-- From an opening brace on, the depth is zero at that brace alone, and never more than the bytes passed.
theorem depth_of_reaches {opening depth : Nat} (hopening : bytes[opening]? = some '{'.toUInt8)
    (h : (braceLoop bytes).Reaches opening 0 i depth) : depth ≤ i ∧ (depth = 0 → i = opening) := by
  induction h with
  | start => exact ⟨Nat.zero_le opening, fun _ => rfl⟩
  | @move i next depth after _ hturn ih =>
      obtain ⟨⟨hforward, -⟩, hafter, hzero⟩ := braceTurn_moves bytes hturn
      obtain ⟨hdepth, hplace⟩ := ih
      refine ⟨by omega, fun hnone => ?_⟩
      obtain ⟨hnone, hno⟩ := hzero hnone
      rw [hplace hnone] at hno
      exact absurd hopening hno

theorem natAbs_of_reaches {depth : Int} (h : (depthLoop bytes).Reaches 0 0 i depth) :
    depth.natAbs ≤ i := by
  induction h with
  | start => exact Nat.le_refl 0
  | @move i next depth after _ hturn ih =>
      obtain ⟨⟨hforward, -⟩, hafter⟩ := depthTurn_moves bytes hturn
      omega

end

-- The place of the brace that closes the block opened at a place.
def closingPlace (bytes : List UInt8) (opening : Nat) : Except Fault (Option Nat) :=
  if bytes[opening]? = some '{'.toUInt8 then (braceLoop bytes).run opening 0 else .ok none

def depthOf (bytes : List UInt8) : Except Fault Int :=
  (depthLoop bytes).run 0 0

-- That a character begins at a place, or that the bytes end there.
def isBoundary (bytes : List UInt8) (i : Nat) : Bool :=
  i == 0 || i == bytes.length || bytes[i]?.any fun b => b < 0x80 || 0xC0 ≤ b

def slice (bytes : List UInt8) (start stop : Nat) : Except Fault (List UInt8) :=
  if start ≤ stop ∧ isBoundary bytes start ∧ isBoundary bytes stop then
    .ok ((bytes.drop start).take (stop - start))
  else .error .splitsCharacter

def layoutChars : List Char :=
  [' ', '\t', '\n', '\x0c', '\r']

def isLayoutAt (bytes : List UInt8) (i : Nat) : Bool :=
  layoutChars.any fun c => bytes[i]? == some c.toUInt8

def bodyTurn (bytes : List UInt8) (i : Nat) (onLine : Bool) :
    Except Fault (Turn Bool (Option (List UInt8))) :=
  if bytes[i]? = some '{'.toUInt8 then do
    match ← closingPlace bytes i with
    | none => .ok (.ends none)
    | some closing => (slice bytes (i + 1) closing).map fun body => .ends (some body)
  else if bytes[i]? = some '/'.toUInt8 ∧ bytes[i + 1]? = some '/'.toUInt8 then
    (lineEnd bytes i).map (.moves · onLine)
  else if bytes[i]? = some ';'.toUInt8 ∨ bytes[i]? = some '}'.toUInt8 then .ok (.ends none)
  else if bytes[i]? = some '\n'.toUInt8 then .ok (.moves (i + 1) false)
  else if i < bytes.length then
    if isLayoutAt bytes i || onLine then .ok (.moves (i + 1) onLine)
    else .ok (.ends none)
  else .error .outside

theorem advances_bodyTurn (bytes : List UInt8) : Advances bytes.length (bodyTurn bytes) := by
  intro i onLine next after h
  rw [bodyTurn] at h
  split at h
  · cases hclosing : closingPlace bytes i with
    | error fault => rw [hclosing] at h; cases h
    | ok closing =>
        rw [hclosing] at h
        cases closing with
        | none => cases h
        | some closing =>
            obtain ⟨body, -, heq⟩ := map_eq_ok_iff.mp h
            cases heq
  · split at h
    · rename_i hslashes
      obtain ⟨stop, hstop, heq⟩ := map_eq_ok_iff.mp h
      cases heq
      exact lineEnd_bounds bytes hslashes.1 hstop
    · split at h
      · cases h
      · split at h
        · rename_i hbreak
          cases h
          exact succ_bounds bytes hbreak
        · split at h
          · rename_i hlt
            split at h
            · cases h
              exact ⟨Nat.lt_succ_self i, hlt⟩
            · cases h
          · cases h

def bodyLoop (bytes : List UInt8) : Loop bytes.length Bool (Option (List UInt8)) where
  turn := bodyTurn bytes
  atEnd _ := none
  advances := advances_bodyTurn bytes

-- The bytes of the block that follows a header, which ends at a place.
def bodyBehind (bytes : List UInt8) (start : Nat) : Except Fault (Option (List UInt8)) :=
  (bodyLoop bytes).run start true

end TypeAtlas.Dump
