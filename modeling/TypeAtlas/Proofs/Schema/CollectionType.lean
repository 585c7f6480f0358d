import TypeAtlas.Dump.Field
import TypeAtlas.Proofs.Text.Written
import TypeAtlas.Schema.Classify

namespace TypeAtlas.Schema

open Dump.FieldLine (isRankChar)
open Text

-- What may stand before the name of a list: nothing, or word characters and dots with a dot behind.
inductive IsQualifier : List Char → Prop
  | absent : IsQualifier []
  | path {path : List Char} :
      path ≠ [] → (∀ c ∈ path, isQualifiedChar c = true) → IsQualifier (path ++ ['.'])

def IsRank (rank : List Char) : Prop :=
  ∀ c ∈ rank, c = ',' ∨ isBlank c = true

-- A list around some content, and an array behind some front.
def listText (qualifier content : List Char) : List Char :=
  qualifier ++ "List".toList ++ '<' :: (content ++ ['>'])

def arrayText (front rank : List Char) : List Char :=
  front ++ '[' :: (rank ++ [']'])

def IsListText (type : List Char) : Prop :=
  ∃ qualifier content, type = listText qualifier content ∧ IsQualifier qualifier ∧ content ≠ []

def IsArrayText (type : List Char) : Prop :=
  ∃ front rank, type = arrayText front rank ∧ front ≠ [] ∧ IsRank rank

-- A type that is written without blanks around it.
structure IsTrimmed (type : List Char) : Prop where
  ne_nil : type ≠ []
  front : EndsRun isBlank type
  back : EndsRun isBlank type.reverse

-- One step from a type to a collection of it.
inductive Wrapper
  | list (qualifier before after : List Char) (isQualifier : IsQualifier qualifier)
      (blankBefore : ∀ c ∈ before, isBlank c = true) (blankAfter : ∀ c ∈ after, isBlank c = true)
  | array (gap rank : List Char) (blankGap : ∀ c ∈ gap, isBlank c = true) (isRank : IsRank rank)

def Wrapper.around : Wrapper → List Char → List Char
  | list qualifier before after _ _ _, type => listText qualifier (before ++ type ++ after)
  | array gap rank _ _, type => arrayText (type ++ gap) rank

-- A type with any number of wrappers around it.
inductive WrappedType
  | plain (type : List Char) (isTrimmed : IsTrimmed type)
  | wrapped (wrapper : Wrapper) (inner : WrappedType)

def WrappedType.text : WrappedType → List Char
  | plain type _ => type
  | wrapped wrapper inner => wrapper.around inner.text

section

variable {qualifier name : List Char}

theorem isListName_iff (hname : ∀ c ∈ name, isQualifiedChar c = true) :
    isListName name = true ↔
      ∃ qualifier, IsQualifier qualifier ∧ name = qualifier ++ "List".toList := by
  rw [isListName, Bool.or_eq_true, Bool.and_eq_true, beq_iff_eq, decide_eq_true_eq,
    List.isSuffixOf_iff_suffix]
  constructor
  · rintro (rfl | ⟨hlength, path, rfl⟩)
    · exact ⟨[], .absent, rfl⟩
    · have hne : path ≠ [] := by
        rintro rfl
        exact absurd hlength (by decide)
      refine ⟨path ++ ['.'], .path hne fun c hc => hname c (List.mem_append_left _ hc), ?_⟩
      rw [List.append_assoc]
      rfl
  · rintro ⟨qualifier, hqualifier, rfl⟩
    cases hqualifier with
    | absent => exact .inl rfl
    | @path path hne _ =>
        have hpath := List.length_pos_iff.mpr hne
        have hlist : "List".toList.length = 4 := rfl
        refine .inr ⟨?_, path, ?_⟩
        · simp only [List.length_append, List.length_singleton, hlist]
          omega
        · rw [List.append_assoc]
          rfl

theorem IsQualifier.name_isQualified (h : IsQualifier qualifier) :
    ∀ c ∈ qualifier ++ "List".toList, isQualifiedChar c = true := by
  have hlist : ∀ c ∈ "List".toList, isQualifiedChar c = true := by decide +kernel
  cases h with
  | absent => exact hlist
  | path _ hpath =>
      have hdot : ∀ c ∈ ['.'], isQualifiedChar c = true := by decide +kernel
      simp only [List.forall_mem_append]
      exact ⟨⟨hpath, hdot⟩, hlist⟩

end

-- A list type is read as its content is.
theorem listType?_listText {qualifier : List Char} (hqualifier : IsQualifier qualifier)
    (content : List Char) : listType? (listText qualifier content) = listElement? content := by
  have hends : EndsRun isQualifiedChar ('<' :: (content ++ ['>'])) := .cons (by decide +kernel) _
  have hname := hqualifier.name_isQualified
  have hlist := (isListName_iff hname).mpr ⟨qualifier, hqualifier, rfl⟩
  rw [listType?, listText, takeWhile_written hname hends, dropWhile_written hname hends,
    if_pos hlist]
  simp

theorem exists_of_listType? {type element : List Char} (h : listType? type = some element) :
    ∃ qualifier content, type = listText qualifier content ∧ IsQualifier qualifier ∧
      listElement? content = some element := by
  rw [listType?] at h
  split at h
  · rename_i hname
    split at h
    · rename_i rest hrest
      split at h
      · rename_i hlast
        obtain ⟨qualifier, hqualifier, htake⟩ :=
          (isListName_iff (List.all_eq_true.mp List.all_takeWhile)).mp hname
        obtain ⟨content, rfl⟩ := List.getLast?_eq_some_iff.mp (beq_iff_eq.mp hlast)
        rw [List.dropLast_concat] at h
        refine ⟨qualifier, content, ?_, hqualifier, h⟩
        rw [listText, ← htake, ← hrest, List.takeWhile_append_dropWhile]
      · cases h
    · cases h
  · cases h

theorem isRank_iff {rank : List Char} : IsRank rank ↔ ∀ c ∈ rank.reverse, isRankChar c = true := by
  simp [IsRank, isRankChar]

theorem reverse_arrayText (front rank : List Char) :
    (arrayText front rank).reverse = ']' :: (rank.reverse ++ '[' :: front.reverse) := by
  simp [arrayText]

-- An array type is read as what stands before its brackets is.
theorem arrayType?_arrayText {rank : List Char} (hrank : IsRank rank) (front : List Char) :
    arrayType? (arrayText front rank) = arrayElement? front := by
  have hends : EndsRun isRankChar ('[' :: front.reverse) := .cons (by decide) _
  have hdrop : (rank.reverse ++ '[' :: front.reverse).dropWhile (fun c => c == ',' || isBlank c) =
      '[' :: front.reverse := dropWhile_written (isRank_iff.mp hrank) hends
  rw [arrayType?, reverse_arrayText]
  simp only [hdrop, List.reverse_reverse]

theorem exists_of_arrayType? {type element : List Char} (h : arrayType? type = some element) :
    ∃ front rank, type = arrayText front rank ∧ IsRank rank ∧ arrayElement? front = some element := by
  rw [arrayType?] at h
  split at h
  · rename_i rest hclosing
    split at h
    · rename_i front hopening
      have hrest : rest.takeWhile isRankChar ++ '[' :: front = rest := by
        rw [← hopening]
        exact List.takeWhile_append_dropWhile
      refine ⟨front.reverse, (rest.takeWhile isRankChar).reverse, ?_, ?_, h⟩
      · apply List.reverse_inj.mp
        rw [hclosing, reverse_arrayText, List.reverse_reverse, List.reverse_reverse, hrest]
      · rw [isRank_iff, List.reverse_reverse]
        exact List.all_eq_true.mp List.all_takeWhile
    · cases h
  · cases h

theorem reverse_listText (qualifier content : List Char) :
    (listText qualifier content).reverse =
      '>' :: (content.reverse ++ '<' :: (qualifier ++ "List".toList).reverse) := by
  simp [listText]

section

variable {before type after : List Char} (htype : IsTrimmed type)
include htype

theorem trim_around (hbefore : ∀ c ∈ before, isBlank c = true)
    (hafter : ∀ c ∈ after, isBlank c = true) : trim (before ++ type ++ after) = type := by
  have hends : EndsRun isBlank (type ++ after) := by
    obtain ⟨c, rest, rfl⟩ := List.exists_cons_of_ne_nil htype.ne_nil
    exact .cons (htype.front c rfl) _
  exact trim_written hends htype.back hbefore hafter

theorem listElement?_around (hbefore : ∀ c ∈ before, isBlank c = true)
    (hafter : ∀ c ∈ after, isBlank c = true) :
    listElement? (before ++ type ++ after) = if '\n' ∈ type then none else some type := by
  have hempty : type.isEmpty = false := List.isEmpty_eq_false_iff.mpr htype.ne_nil
  simp only [listElement?, trim_around htype hbefore hafter, hempty, List.contains_iff_mem,
    Bool.false_eq_true, if_false]

theorem arrayElement?_around (hafter : ∀ c ∈ after, isBlank c = true) :
    arrayElement? (type ++ after) = if '\n' ∈ type then none else some type := by
  have hempty : type.isEmpty = false := List.isEmpty_eq_false_iff.mpr htype.ne_nil
  simp only [arrayElement?, trimEnd_written htype.back hafter, hempty, List.contains_iff_mem,
    Bool.false_eq_true, if_false, Bool.false_or]

end

-- No text ends as a list and as an array.
theorem listText_ne_arrayText (qualifier content front rank : List Char) :
    listText qualifier content ≠ arrayText front rank := by
  intro heq
  have hlast := congrArg (fun type => type.reverse.head?) heq
  simp [reverse_arrayText, reverse_listText] at hlast

theorem listType?_arrayText (front rank : List Char) : listType? (arrayText front rank) = none := by
  rw [Option.eq_none_iff_forall_ne_some]
  intro element h
  obtain ⟨qualifier, content, htype, -⟩ := exists_of_listType? h
  exact listText_ne_arrayText qualifier content front rank htype.symm

theorem arrayType?_listText (qualifier content : List Char) :
    arrayType? (listText qualifier content) = none := by
  rw [Option.eq_none_iff_forall_ne_some]
  intro element h
  obtain ⟨front, rank, htype, -⟩ := exists_of_arrayType? h
  exact listText_ne_arrayText qualifier content front rank htype

theorem isBlank_of_isQualifiedChar {c : Char} (h : isQualifiedChar c = true) : isBlank c = false :=
  isBlank_eq_false (by decide +kernel) h

theorem isTrimmed_listText {qualifier : List Char} (hqualifier : IsQualifier qualifier)
    (content : List Char) : IsTrimmed (listText qualifier content) where
  ne_nil := by simp [listText]
  front := by
    have hname := hqualifier.name_isQualified
    rw [listText]
    cases htext : qualifier ++ "List".toList with
    | nil => exact .cons (by decide) _
    | cons c rest =>
        rw [htext] at hname
        exact .cons (isBlank_of_isQualifiedChar (hname c List.mem_cons_self)) _
  back := by
    rw [reverse_listText]
    exact .cons (by decide) _

theorem isTrimmed_arrayText {front : List Char} (hfront : EndsRun isBlank front) (hne : front ≠ [])
    (rank : List Char) : IsTrimmed (arrayText front rank) where
  ne_nil := by simp [arrayText]
  front := by
    obtain ⟨c, rest, rfl⟩ := List.exists_cons_of_ne_nil hne
    exact .cons (hfront c rfl) _
  back := by
    rw [reverse_arrayText]
    exact .cons (by decide) _

theorem WrappedType.isTrimmed (type : WrappedType) : IsTrimmed type.text := by
  induction type with
  | plain type htype => exact htype
  | wrapped wrapper inner ih =>
      cases wrapper with
      | list qualifier before after hqualifier _ _ => exact isTrimmed_listText hqualifier _
      | array gap rank _ _ =>
          obtain ⟨c, rest, htext⟩ := List.exists_cons_of_ne_nil ih.ne_nil
          have hfront : EndsRun isBlank (inner.text ++ gap) := by
            rw [htext]
            exact .cons (ih.front c (by rw [htext]; rfl)) _
          exact isTrimmed_arrayText hfront (by simp [htext]) rank

theorem collectionElement?_around (wrapper : Wrapper) {type : List Char} (htype : IsTrimmed type) :
    collectionElement? (String.ofList (wrapper.around type)) =
      if '\n' ∈ type then none else some (String.ofList type) := by
  rw [collectionElement?, String.toList_ofList]
  cases wrapper with
  | list qualifier before after hqualifier hbefore hafter =>
      rw [Wrapper.around, listType?_listText hqualifier, listElement?_around htype hbefore hafter,
        arrayType?_listText]
      split
      · rfl
      · rfl
  | array gap rank hgap hrank =>
      rw [Wrapper.around, listType?_arrayText, arrayType?_arrayText hrank,
        arrayElement?_around htype hgap]
      split
      · rfl
      · rfl

theorem isListText_or_isArrayText {type element : String}
    (h : collectionElement? type = some element) :
    IsListText type.toList ∨ IsArrayText type.toList := by
  obtain ⟨found, hfound, -⟩ := Option.map_eq_some_iff.mp h
  cases hlist : listType? type.toList with
  | some element =>
      obtain ⟨qualifier, content, htype, hqualifier, hcontent⟩ := exists_of_listType? hlist
      refine .inl ⟨qualifier, content, htype, hqualifier, ?_⟩
      rintro rfl
      cases hcontent
  | none =>
      rw [hlist] at hfound
      obtain ⟨front, rank, htype, hrank, hfront⟩ := exists_of_arrayType? hfound
      refine .inr ⟨front, rank, htype, ?_, hrank⟩
      rintro rfl
      cases hfront

-- Of the wrappers around a type the outermost is taken off, if what is within stands on one line. A
-- text that is no list and no array has no elements.
theorem collectionElement?_outermost :
    (∀ (wrapper : Wrapper) (inner : WrappedType),
      collectionElement? (String.ofList (wrapper.around inner.text)) =
        if '\n' ∈ inner.text then none else some (String.ofList inner.text)) ∧
      ∀ type : String, ¬IsArrayText type.toList → ¬IsListText type.toList →
        collectionElement? type = none := by
  refine ⟨fun wrapper inner => collectionElement?_around wrapper inner.isTrimmed, ?_⟩
  intro type harray hlist
  rw [Option.eq_none_iff_forall_ne_some]
  intro element h
  exact (isListText_or_isArrayText h).elim hlist harray

example : collectionElement? "Game.List< List<int> [,] >" = some "List<int> [,]" := by decide +kernel

-- A list within another generic type.
theorem mapType_no_element : collectionElement? "Map<List<int>>" = none := by
  have harray : ¬IsArrayText "Map<List<int>>".toList := by
    rintro ⟨front, rank, htype, -⟩
    have hlast := congrArg (fun type => type.reverse.head?) htype
    have hclosing : "Map<List<int>>".toList.reverse.head? = some '>' := by decide
    rw [hclosing, reverse_arrayText] at hlast
    cases hlast
  have hlist : ¬IsListText "Map<List<int>>".toList := by
    rintro ⟨qualifier, content, htype, hqualifier, -⟩
    have hlength := congrArg (fun type => (type.takeWhile isQualifiedChar).length) htype
    have hends : EndsRun isQualifiedChar ('<' :: (content ++ ['>'])) := .cons (by decide +kernel) _
    have hthree : ("Map<List<int>>".toList.takeWhile isQualifiedChar).length = 3 := by decide +kernel
    have hfour : "List".toList.length = 4 := rfl
    simp only [listText, takeWhile_written hqualifier.name_isQualified hends, hthree,
      List.length_append, hfour] at hlength
    omega
  exact collectionElement?_outermost.2 _ harray hlist

end TypeAtlas.Schema
