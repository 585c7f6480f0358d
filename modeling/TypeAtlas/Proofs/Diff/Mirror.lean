import TypeAtlas.Proofs.Diff.Compare
import TypeAtlas.Proofs.Offset

namespace TypeAtlas.Diff

open Schema (Enum Struct Template)

-- A severity as a comparison in the other direction gives it.
def Severity.mirror : Severity → Severity
  | .add => .del
  | .del => .add
  | severity => severity

-- How many changes have a severity.
def count (severity : Severity) (changes : List Change) : Nat :=
  changes.countP fun change => change.severity = severity

-- Changes of one direction and of the other, whose severities mirror each other in some order.
def Mirrored (front back : List Change) : Prop :=
  (back.map Change.severity).Perm (front.map fun change => change.severity.mirror)

namespace Mirrored

theorem nil : Mirrored [] [] :=
  List.Perm.nil

theorem cons {change change' : Change} {front back : List Change}
    (h : change'.severity = change.severity.mirror) (hrest : Mirrored front back) :
    Mirrored (change :: front) (change' :: back) := by
  rw [Mirrored, List.map_cons, List.map_cons, h]
  exact List.Perm.cons _ hrest

theorem append {front front' back back' : List Change} (h : Mirrored front front')
    (h' : Mirrored back back') : Mirrored (front ++ back) (front' ++ back') := by
  rw [Mirrored, List.map_append, List.map_append]
  exact List.Perm.append h h'

-- What comes first in one direction may come last in the other.
theorem append_swap {front front' back back' : List Change} (h : Mirrored front front')
    (h' : Mirrored back back') : Mirrored (front ++ back) (back' ++ front') := by
  rw [Mirrored, List.map_append, List.map_append]
  exact (List.Perm.append h' h).trans List.perm_append_comm

theorem map {β γ : Type} {f : β → Change} {g : γ → Change} (severity : Severity)
    (hf : ∀ x, (f x).severity = severity) (hg : ∀ y, (g y).severity = severity.mirror)
    {xs : List β} {ys : List γ} (h : ys.length = xs.length) : Mirrored (xs.map f) (ys.map g) := by
  simp [Mirrored, Function.comp_def, hf, hg, h]

theorem flatMap {β : Type} {f g : β → List Change} (h : ∀ x, Mirrored (f x) (g x))
    (xs : List β) : Mirrored (xs.flatMap f) (xs.flatMap g) := by
  induction xs with
  | nil => exact nil
  | cons x rest ih => exact (h x).append ih

-- So many changes of some severities are there as of their mirrors in the other direction.
theorem countP_eq {front back : List Change} (h : Mirrored front back)
    {p q : Severity → Bool} (hpq : ∀ severity, p severity.mirror = q severity) :
    (back.countP fun change => p change.severity) =
      front.countP fun change => q change.severity := by
  have hcount := List.Perm.countP_eq p h
  simpa [List.countP_map, Function.comp_def, hpq] using hcount

theorem count_eq {front back : List Change} (h : Mirrored front back) (severity : Severity) :
    count severity.mirror back = count severity front := by
  apply h.countP_eq (p := fun other => other = severity.mirror) (q := fun other => other = severity)
  intro other
  cases other <;> cases severity <;> rfl

end Mirrored

section

variable {α β : Type}

theorem rising_common (old new : NameMap α) : Rising (common old new) := by
  rw [Rising, common, List.pairwise_filterMap]
  refine old.rising.imp ?_
  rintro a b hlt x hx y hy
  obtain ⟨_, -, rfl⟩ := Option.map_eq_some_iff.mp hx
  obtain ⟨_, -, rfl⟩ := Option.map_eq_some_iff.mp hy
  exact hlt

-- Both directions go through the names of both sides in the same order.
theorem common_swap (old new : NameMap α) :
    common new old = (common old new).map fun entry => (entry.1, entry.2.swap) := by
  have h : (⟨common new old, rising_common new old⟩ : NameMap (α × α)) =
      NameMap.map (fun _ => Prod.swap) ⟨common old new, rising_common old new⟩ := by
    apply NameMap.ext_get?
    intro name
    apply Option.ext
    rintro ⟨now, was⟩
    rw [NameMap.get?_map]
    simp [NameMap.get?_eq_some_iff, mem_common_iff, and_comm]
  exact congrArg NameMap.entries h

theorem filter_common_swap {p : String × α × α → Bool}
    (hp : ∀ name a b, p (name, b, a) = p (name, a, b)) (old new : NameMap α) :
    (common new old).filter p =
      ((common old new).filter p).map fun entry => (entry.1, entry.2.swap) := by
  have hswap : (p ∘ fun entry => (entry.1, entry.2.swap)) = p := by
    funext ⟨name, a, b⟩
    exact hp name a b
  rw [common_swap, List.filter_map, hswap]

theorem group_mirrored {count count' : Nat → Change} {each each' : String × α → Change}
    (hcount : ∀ n, (count' n).severity = (count n).severity.mirror)
    (heach : ∀ entry, (each entry).severity = .info)
    (heach' : ∀ entry, (each' entry).severity = .info) (names : List (String × α)) :
    Mirrored (group count each names) (group count' each' names) := by
  cases names with
  | nil => exact .nil
  | cons entry rest => exact .cons (hcount _) (.map .info heach heach' rfl)

theorem addedAndRemoved_mirrored {grain : Grain} {each : String × α → Change}
    (heach : ∀ entry, (each entry).severity = .info) (old new : NameMap α) :
    Mirrored (addedAndRemoved grain each old new) (addedAndRemoved grain each new old) := by
  have hgone (entry : String × α) : (Change.gone entry.1).severity = .info := rfl
  have hadded : Mirrored (group (.added grain) each (onlyIn new old))
      (group (.removed grain) (fun entry => .gone entry.1) (onlyIn new old)) :=
    group_mirrored (fun _ => rfl) heach hgone _
  have hremoved : Mirrored (group (.removed grain) (fun entry => .gone entry.1) (onlyIn old new))
      (group (.added grain) each (onlyIn old new)) :=
    group_mirrored (fun _ => rfl) hgone heach _
  exact hadded.append_swap hremoved

theorem section_mirrored {grain : Grain} {each : String × α → Change}
    {compare : String × α × α → List Change} (heach : ∀ entry, (each entry).severity = .info)
    (hcompare : ∀ name was now, Mirrored (compare (name, was, now)) (compare (name, now, was)))
    (old new : NameMap α) :
    Mirrored (addedAndRemoved grain each old new ++ (common old new).flatMap compare)
      (addedAndRemoved grain each new old ++ (common new old).flatMap compare) := by
  refine (addedAndRemoved_mirrored heach old new).append ?_
  rw [common_swap old new, List.flatMap_map]
  exact .flatMap (fun (name, was, now) => hcompare name was now) _

end

theorem compareStructs_mirrored (old new : NameMap Struct) :
    Mirrored (compareStructs old new) (compareStructs new old) := by
  refine section_mirrored (fun _ => rfl) (fun name was now => ?_) old new
  by_cases h : was.size = now.size
  · simp only [h, if_true]
    exact .nil
  · simp only [h, Ne.symm h, if_false]
    exact .cons rfl .nil

theorem storageChange_mirrored (name : String) (was now : Enum) :
    Mirrored (storageChange name was now) (storageChange name now was) := by
  by_cases h : was.underlyingType = now.underlyingType
  · rw [storageChange, storageChange, if_pos h, if_pos h.symm]
    exact .nil
  · rw [storageChange, storageChange, if_neg h, if_neg (Ne.symm h)]
    exact .cons rfl .nil

theorem valueChanges_mirrored (name : String) (was now : Enum) :
    Mirrored (valueChanges name was now) (valueChanges name now was) := by
  rw [valueChanges, valueChanges, filter_common_swap ?_ was.values now.values]
  · simp only [List.isEmpty_map, Bool.and_comm (onlyIn was.values now.values).isEmpty]
    split
    · exact .nil
    · refine .append (.cons rfl (.append_swap ?_ ?_)) ?_
      · exact .map .info (fun _ => rfl) (fun _ => rfl) rfl
      · exact .map .info (fun _ => rfl) (fun _ => rfl) rfl
      · exact .map .crit (fun _ => rfl) (fun _ => rfl) (List.length_map _)
  · exact fun _ a b => by simp [eq_comm]

theorem compareEnums_mirrored (old new : NameMap Enum) :
    Mirrored (compareEnums old new) (compareEnums new old) :=
  section_mirrored (fun _ => rfl) (fun name was now =>
    (storageChange_mirrored name was now).append (valueChanges_mirrored name was now)) old new

theorem isMoved_comm (was now : Schema.Field) : isMoved now was = isMoved was now := by
  rw [isMoved, isMoved, Offset.same_comm]

theorem movedFields_swap (was now : Template) :
    movedFields now was = (movedFields was now).map fun entry => (entry.1, entry.2.swap) :=
  filter_common_swap (fun _ a b => isMoved_comm a b) _ _

theorem retypedFields_swap (was now : Template) :
    retypedFields now was = (retypedFields was now).map fun entry => (entry.1, entry.2.swap) :=
  filter_common_swap (fun _ a b => by simp [isMoved_comm, eq_comm]) _ _

theorem fieldChanges_mirrored (was now : Template) :
    Mirrored (fieldChanges was now) (fieldChanges now was) := by
  rw [fieldChanges, fieldChanges, movedFields_swap was now, retypedFields_swap was now]
  refine .append (.append (.append_swap ?_ ?_) ?_) ?_
  · exact .map .info (fun _ => rfl) (fun _ => rfl) rfl
  · exact .map .info (fun _ => rfl) (fun _ => rfl) rfl
  · exact .map .crit (fun _ => rfl) (fun _ => rfl) (List.length_map _)
  · exact .map .warn (fun _ => rfl) (fun _ => rfl) (List.length_map _)

theorem templateChanges_mirrored (name : String) (was now : Template) :
    Mirrored (templateChanges name was now) (templateChanges name now was) := by
  have hfields := fieldChanges_mirrored was now
  have hlength : (fieldChanges now was).length = (fieldChanges was now).length := by
    simpa using List.Perm.length_eq hfields
  have hempty : (fieldChanges now was).isEmpty = (fieldChanges was now).isEmpty := by
    rw [Bool.eq_iff_iff, List.isEmpty_iff_length_eq_zero, List.isEmpty_iff_length_eq_zero, hlength]
  simp only [templateChanges, hempty]
  split
  · exact .nil
  · exact .cons rfl hfields

theorem moveCount_comm (old new : NameMap Template) : moveCount new old = moveCount old new := by
  have hentry (entry : String × Template × Template) :
      (movedFields entry.2.2 entry.2.1).length = (movedFields entry.2.1 entry.2.2).length := by
    rw [movedFields_swap, List.length_map]
  simp [moveCount, common_swap old new, List.length_flatMap, List.map_map, Function.comp_def, hentry]

theorem compareTemplates_mirrored (old new : NameMap Template) :
    Mirrored (compareTemplates old new) (compareTemplates new old) := by
  simp only [compareTemplates, moveCount_comm old new, List.append_assoc]
  refine .append ?_ (section_mirrored (fun _ => rfl) (fun name was now => ?_) old new)
  · split
    · exact .nil
    · exact .cons rfl .nil
  · exact templateChanges_mirrored name was now

theorem changes_mirrored (a b : Schema) :
    Mirrored (between a b).changes (between b a).changes :=
  ((compareEnums_mirrored _ _).append (compareStructs_mirrored _ _)).append
    (compareTemplates_mirrored _ _)

theorem changeCount_comm (a b : Schema) :
    (between b a).changeCount = (between a b).changeCount := by
  apply (changes_mirrored a b).countP_eq (p := fun s => s ≠ .info) (q := fun s => s ≠ .info)
  intro severity
  cases severity <;> rfl

theorem criticalCount_comm (a b : Schema) :
    (between b a).criticalCount = (between a b).criticalCount :=
  (changes_mirrored a b).count_eq .crit

-- Each section of a comparison has as many changes of a severity as it has of the mirrored one in
-- the other direction, so what is counted over all of them does not depend on the direction.
theorem between_mirrored (a b : Schema) :
    (∀ severity : Severity,
      count severity.mirror (between b a).enums = count severity (between a b).enums ∧
      count severity.mirror (between b a).structs = count severity (between a b).structs ∧
      count severity.mirror (between b a).templates = count severity (between a b).templates) ∧
    (between b a).changeCount = (between a b).changeCount ∧
    (between b a).criticalCount = (between a b).criticalCount ∧
    (between b a).hasCritical = (between a b).hasCritical := by
  refine ⟨fun severity => ⟨?_, ?_, ?_⟩, changeCount_comm a b, criticalCount_comm a b, ?_⟩
  · exact (compareEnums_mirrored a.enums b.enums).count_eq severity
  · exact (compareStructs_mirrored a.structs b.structs).count_eq severity
  · exact (compareTemplates_mirrored a.templates b.templates).count_eq severity
  · rw [hasCritical, hasCritical, criticalCount_comm]

end TypeAtlas.Diff
