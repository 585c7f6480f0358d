import TypeAtlas.Proofs.Dump.Header
import TypeAtlas.Proofs.Dump.Index
import TypeAtlas.Proofs.Dump.Nesting
import TypeAtlas.Proofs.Dump.Opening

namespace TypeAtlas.Dump

open Text

-- A text that declares one type. Its first line begins with a header, as no later line does, and
-- the block of the header closes within the text, with nothing but blanks and a line break at the
-- end behind it.
structure Block where
  text : List Char
  header : Header
  afterHeader : List Char
  afterOpening : List Char
  body : List Char
  afterClosing : List Char
  reads : Header.read? text = some (header, afterHeader)
  alone : ∀ line ∈ laterLines text, Header.read? line = none
  opens : opening? false false afterHeader = some afterOpening
  closes : enclosed? afterOpening = some (body, afterClosing)
  blank : ∀ c ∈ afterClosing, isBlank c
  ends : text.getLast? = some '\n'

namespace Block

def key (block : Block) : Kind × String :=
  (block.header.kind, block.header.name)

def sighting (block : Block) : Sighting :=
  ⟨block.header, if block.header.isGeneric then none else some block.body⟩

-- What a block declares, unless it has type parameters.
def declaration? (block : Block) : Option Declaration :=
  block.sighting.body.map fun body =>
    ⟨block.header.kind, block.header.name, block.header.isAbstract, block.header.base, body⟩

theorem exists_line (block : Block) : ∃ s, block.text = s ++ ['\n'] :=
  List.getLast?_eq_some_iff.mp block.ends

-- What follows a block changes neither its header nor its body.
theorem sighting?_append (block : Block) (more : List Char) :
    sighting? (block.text ++ more) = some block.sighting := by
  obtain ⟨s, hs⟩ := block.exists_line
  have hreads := block.reads
  rw [hs, Header.read?_break, Option.map_eq_some_iff] at hreads
  obtain ⟨⟨header, after⟩, hread, hfound⟩ := hreads
  obtain ⟨rfl, hafter⟩ := Prod.mk.inj hfound
  have hopens : opening? false false (after ++ '\n' :: more) =
      some (block.afterOpening ++ more) := by
    have h := opening?_append block.opens more
    rwa [← hafter, List.append_assoc] at h
  have hbody : body? (after ++ '\n' :: more) = some block.body := by
    have h := enclosedFrom_append block.closes more
    rw [body?, bodyFrom?_eq, hopens, Option.bind_some, enclosed?, h, Option.map_some]
  rw [sighting?, hs, List.append_assoc, List.singleton_append, Header.read?_break, hread]
  simp only [Option.map_some, hbody, sighting]

theorem sightings_append (block : Block) (more : List Char) :
    sightings (block.text ++ more) = block.sighting :: sightings more := by
  obtain ⟨s, hs⟩ := block.exists_line
  have halone : ∀ line ∈ laterLines s, sighting? (line ++ '\n' :: more) = none := by
    intro line hline
    have hmem : line ++ ['\n'] ∈ laterLines block.text := by
      rw [hs, laterLines_append]
      exact List.mem_append_left _ (List.mem_map_of_mem hline)
    have hnone := block.alone _ hmem
    rw [Header.read?_break, Option.map_eq_none_iff] at hnone
    rw [sighting?, Header.read?_break, hnone, Option.map_none, Option.map_none]
  have hlater : (laterLines (block.text ++ more)).filterMap sighting? = sightings more := by
    have hfirst : ((laterLines s).map (· ++ '\n' :: more)).filterMap sighting? = [] := by
      rw [List.filterMap_map]
      exact List.filterMap_eq_nil_iff.mpr halone
    rw [hs, List.append_assoc, List.singleton_append, laterLines_append, List.filterMap_append,
      hfirst, laterLines, if_pos rfl, List.filterMap_cons, sightings_eq more]
    cases sighting? more with
    | none => rfl
    | some sighting => rfl
  rw [sightings_eq, block.sighting?_append, hlater]
  rfl

theorem sightings_flatMap (blocks : List Block) :
    sightings (blocks.flatMap Block.text) = blocks.map Block.sighting := by
  induction blocks with
  | nil =>
      have hnone : Header.read? [] = none := by decide +kernel
      rw [List.flatMap_nil, sightings_eq, sighting?, hnone]
      rfl
  | cons block rest ih => rw [List.flatMap_cons, sightings_append, ih, List.map_cons]

theorem key_of_declaration? {block : Block} {d : Declaration} (h : block.declaration? = some d) :
    d.key = block.key := by
  obtain ⟨body, -, rfl⟩ := Option.map_eq_some_iff.mp h
  rfl

theorem declaration?_sighting {block : Block} {earlier : List Declaration}
    (hnew : ∀ d ∈ earlier, d.key ≠ block.key) :
    block.sighting.declaration? earlier = block.declaration? := by
  have hunseen : (earlier.any fun d =>
      d.kind == block.header.kind && d.name == block.header.name) = false := by
    rw [List.any_eq_false]
    intro d hd hseen
    simp only [Bool.and_eq_true, beq_iff_eq] at hseen
    exact hnew d hd (Prod.ext hseen.1 hseen.2)
  simp only [Sighting.declaration?, declaration?, sighting, hunseen, Bool.false_eq_true, if_false]
  split
  · rfl
  · rfl

-- Blocks with different keys are listed as what they declare.
theorem listed_sightings {earlier : List Declaration} {blocks : List Block}
    (hkeys : (blocks.map Block.key).Nodup)
    (hnew : ∀ block ∈ blocks, ∀ d ∈ earlier, d.key ≠ block.key) :
    listed earlier (blocks.map Block.sighting) = blocks.filterMap Block.declaration? := by
  induction blocks generalizing earlier with
  | nil => rfl
  | cons block rest ih =>
      obtain ⟨hkey, hrest⟩ := List.nodup_cons.mp hkeys
      have hold : ∀ other ∈ rest, ∀ d ∈ earlier, d.key ≠ other.key :=
        fun other hother => hnew other (List.mem_cons_of_mem _ hother)
      rw [List.map_cons, listed_cons, declaration?_sighting (hnew block List.mem_cons_self),
        List.filterMap_cons]
      cases hd : block.declaration? with
      | none => exact ih hrest hold
      | some d =>
          refine congrArg (d :: ·) (ih hrest fun other hother => ?_)
          intro e he
          rcases List.mem_cons.mp he with rfl | he
          · rw [key_of_declaration? hd]
            intro heq
            exact hkey (heq ▸ List.mem_map_of_mem hother)
          · exact hold other hother e he

theorem declarations_scan {blocks : List Block} (hkeys : (blocks.map Block.key).Nodup) :
    (Index.scan (blocks.flatMap Block.text)).declarations =
      blocks.filterMap Block.declaration? := by
  have hlisted : (Index.scan (blocks.flatMap Block.text)).declarations =
      listed [] (sightings (blocks.flatMap Block.text)) := rfl
  rw [hlisted, sightings_flatMap, listed_sightings hkeys]
  intro block _ d hd
  cases hd

-- The order of blocks leaves every look-up as it is.
theorem get?_scan_perm {blocks others : List Block} (hkeys : (blocks.map Block.key).Nodup)
    (hperm : blocks.Perm others) (kind : Kind) (name : String) :
    (Index.scan (blocks.flatMap Block.text)).get? kind name =
      (Index.scan (others.flatMap Block.text)).get? kind name := by
  have hkeys' : (others.map Block.key).Nodup := (hperm.map Block.key).nodup_iff.mp hkeys
  ext d
  rw [Index.get?_scan_iff, Index.get?_scan_iff, declarations_scan hkeys, declarations_scan hkeys',
    (hperm.filterMap Block.declaration?).mem_iff]

end Block

end TypeAtlas.Dump
