import TypeAtlas.Json.Printer
import TypeAtlas.Proofs.Json.Reading
import TypeAtlas.Proofs.Text.Digits

namespace TypeAtlas.Json

def Numeral.ofInt (n : Int) : Numeral :=
  ⟨n < 0, Decimal.digits n.natAbs, [], none⟩

mutual

-- The tree a value is written as, but for floating-point numbers.
def Value.node : Value → Node
  | .null | .float _ => .null
  | .bool b => .bool b
  | .whole n => .num (.ofInt n)
  | .str text => .str (some text)
  | .arr items => .arr (Value.nodes items) .closed
  | .obj members => .obj (Value.memberNodes members) .closed

def Value.nodes : List Value → List Node
  | [] => []
  | item :: rest => Value.node item :: Value.nodes rest

def Value.memberNodes : List (String × Value) → List (Option String × Node)
  | [] => []
  | (name, value) :: rest => (some name, Value.node value) :: Value.memberNodes rest

end

mutual

-- Values without floating-point numbers in them.
def Value.isExact : Value → Bool
  | .float _ => false
  | .null | .bool _ | .whole _ | .str _ => true
  | .arr items => Value.areExact items
  | .obj members => Value.areExactMembers members

def Value.areExact : List Value → Bool
  | [] => true
  | item :: rest => Value.isExact item && Value.areExact rest

def Value.areExactMembers : List (String × Value) → Bool
  | [] => true
  | (_, value) :: rest => Value.isExact value && Value.areExactMembers rest

end

namespace Value

theorem nodes_eq_map (items : List Value) : nodes items = items.map node := by
  induction items with
  | nil => rfl
  | cons item rest ih => simp [nodes, ih]

theorem memberNodes_eq_map (members : List (String × Value)) :
    memberNodes members = members.map fun (name, value) => (some name, value.node) := by
  induction members with
  | nil => rfl
  | cons member rest ih => simp [memberNodes, ih]

theorem areExact_eq_all (items : List Value) : areExact items = items.all isExact := by
  induction items with
  | nil => rfl
  | cons item rest ih => simp [areExact, ih]

theorem areExactMembers_eq_all (members : List (String × Value)) :
    areExactMembers members = members.all fun (_, value) => value.isExact := by
  induction members with
  | nil => rfl
  | cons member rest ih => simp [areExactMembers, ih]

end Value

-- Nothing but blanks between the signs of a value.
structure Layout.IsBlank (layout : Layout) : Prop where
  breakAt (level : Nat) : Blank (layout.breakAt level)
  colon : ∃ blank, Blank blank ∧ layout.colon = ':' :: blank

theorem Layout.indented_isBlank : Layout.indented.IsBlank where
  breakAt level := by
    intro c hc
    rcases List.mem_cons.mp hc with rfl | hc
    · rfl
    · rw [List.eq_of_mem_replicate hc]
      rfl
  colon := ⟨[' '], by rintro c hc; simp at hc; subst hc; rfl, rfl⟩

theorem spellsChars_escaped (c : Char) {text cs : List Char} (h : SpellsChars text cs) :
    SpellsChars (escaped c ++ text) (c :: cs) := by
  unfold escaped
  split
  · rename_i hself
    refine .letter ?_ h
    simp only [Bool.or_eq_true, decide_eq_true_eq] at hself
    rcases hself with rfl | rfl <;> rfl
  split
  · subst c; exact .letter rfl h
  split
  · subst c; exact .letter rfl h
  split
  · subst c; exact .letter rfl h
  split
  · subst c; exact .letter rfl h
  split
  · subst c; exact .letter rfl h
  split
  · rename_i hcontrol
    have hlt : c.toNat < 32 := hcontrol
    have hcode := SpellsChars.code (n := c.toNat)
      (Text.length_hexPadded (by decide) (show c.toNat < 16 ^ 4 by omega))
      (Text.hexNumber?_hexPadded 4 c.toNat) (by omega) h
    rwa [Char.ofNat_toNat] at hcode
  · rename_i hself _ _ _ _ _ hcontrol
    simp only [Bool.or_eq_true, decide_eq_true_eq, not_or] at hself
    exact .plain hself.1 hself.2 hcontrol h

theorem spellsString_quoted (text : String) : SpellsString (quoted text) text := by
  refine ⟨text.toList.flatMap escaped, rfl, ?_⟩
  induction text.toList with
  | nil => exact .done
  | cons c rest ih => exact spellsChars_escaped c ih

theorem isDigits_digits (n : Nat) : IsDigits (Decimal.digits n) :=
  ⟨Nat.toDigits_ne_nil, fun _ hc => Nat.isDigit_of_mem_toDigits (by decide) (by decide) hc⟩

theorem spellsNumeral_wholeText (n : Int) : SpellsNumeral (wholeText n) (.ofInt n) := by
  refine ⟨[], [], ?_, isDigits_digits _, ?_, .absent, .absent⟩
  · by_cases h : n < 0 <;> simp [wholeText, Numeral.ofInt, h]
  · by_cases h : n.natAbs = 0
    · left
      simp [Numeral.ofInt, Decimal.digits, h]
    · right
      obtain ⟨c, rest, hdigits, hc⟩ :=
        Text.head_toDigits_ne_zero (show 1 < 10 by decide) (by decide)
          (show 0 < n.natAbs by omega)
      simp [Numeral.ofInt, Decimal.digits, hdigits, hc]

theorem separated_cons_cons (separator part next : List Char) (parts : List (List Char)) :
    separated separator (part :: next :: parts) =
      part ++ (separator ++ separated separator (next :: parts)) := by
  simp [separated]

theorem bracketed_cons (layout : Layout) (level : Nat) (opening closing : Char) (part : List Char)
    (parts : List (List Char)) :
    layout.bracketed level opening closing (part :: parts) =
      opening :: (layout.breakAt (level + 1) ++
        separated (',' :: layout.breakAt (level + 1)) (part :: parts) ++
          layout.breakAt level ++ [closing]) := by
  simp [Layout.bracketed]

mutual

-- A written value spells its tree.
theorem spells_write {layout : Layout} (hlayout : layout.IsBlank) (level : Nat) (value : Value)
    (hexact : value.isExact = true) : Spells (value.write layout level) value.node := by
  match value with
  | .null => exact .null
  | .bool true => exact .yes
  | .bool false => exact .no
  | .whole n => exact .num (spellsNumeral_wholeText n)
  | .str text => exact .str (spellsString_quoted text)
  | .arr [] => exact .emptyArr blank_nil
  | .arr (item :: rest) =>
      have hitems := spellsItems_write hlayout (level + 1) (item :: rest) (by simp) hexact
        (hlayout.breakAt (level + 1)) (hlayout.breakAt level)
      rw [Value.write, Value.writeItems, bracketed_cons, ← Value.writeItems]
      exact .arr hitems
  | .obj [] => exact .emptyObj blank_nil
  | .obj ((name, value) :: rest) =>
      have hmembers := spellsMembers_write hlayout (level + 1) ((name, value) :: rest) (by simp)
        hexact (hlayout.breakAt (level + 1)) (hlayout.breakAt level)
      rw [Value.write, Value.writeMembers, bracketed_cons, ← Value.writeMembers]
      exact .obj hmembers

theorem spellsItems_write {layout : Layout} (hlayout : layout.IsBlank) (level : Nat)
    (items : List Value) (hne : items ≠ []) (hexact : Value.areExact items = true)
    {before after : List Char} (hbefore : Blank before) (hafter : Blank after) :
    SpellsItems (before ++ separated (',' :: before) (Value.writeItems layout level items) ++ after)
      (Value.nodes items) := by
  match items with
  | [] => exact absurd rfl hne
  | [item] =>
      have hitem : item.isExact = true := by simpa [Value.areExact] using hexact
      have hlast := SpellsItems.last hbefore (spells_write hlayout level item hitem) hafter
      simpa [Value.writeItems, Value.nodes, separated] using hlast
  | item :: next :: rest =>
      obtain ⟨hitem, hrest⟩ := Bool.and_eq_true_iff.mp hexact
      have hmore := spellsItems_write hlayout level (next :: rest) (by simp) hrest hbefore hafter
      have hnext :=
        SpellsItems.next hbefore (spells_write hlayout level item hitem) blank_nil hmore
      simpa [Value.writeItems, Value.nodes, separated_cons_cons] using hnext

theorem spellsMembers_write {layout : Layout} (hlayout : layout.IsBlank) (level : Nat)
    (members : List (String × Value)) (hne : members ≠ [])
    (hexact : Value.areExactMembers members = true)
    {before after : List Char} (hbefore : Blank before) (hafter : Blank after) :
    SpellsMembers
      (before ++ separated (',' :: before) (Value.writeMembers layout level members) ++ after)
        (Value.memberNodes members) := by
  obtain ⟨blank, hblank, hcolon⟩ := hlayout.colon
  have hkey : ∀ name, SpellsKey (before ++ quoted name ++ [] ++ [':']) name := fun name =>
    ⟨before, _, [], rfl, hbefore, spellsString_quoted name, blank_nil⟩
  match members with
  | [] => exact absurd rfl hne
  | [(name, value)] =>
      have hvalue : value.isExact = true := by simpa [Value.areExactMembers] using hexact
      have hlast :=
        SpellsMembers.last (hkey name) hblank (spells_write hlayout level value hvalue) hafter
      simpa [Value.writeMembers, Value.memberNodes, separated, hcolon] using hlast
  | (name, value) :: next :: rest =>
      obtain ⟨hvalue, hrest⟩ := Bool.and_eq_true_iff.mp hexact
      have hmore := spellsMembers_write hlayout level (next :: rest) (by simp) hrest hbefore hafter
      have hnext := SpellsMembers.next (hkey name) hblank (spells_write hlayout level value hvalue)
        blank_nil hmore
      simpa [Value.writeMembers, Value.memberNodes, separated_cons_cons, hcolon] using hnext

end

theorem read_pretty (value : Value) (hexact : value.isExact = true) :
    Document.read value.pretty.toList = ⟨value.node, true⟩ := by
  have hspells := spells_write Layout.indented_isBlank 0 value hexact
  simpa [Value.pretty] using read_of_spells hspells blank_nil blank_nil

end TypeAtlas.Json
