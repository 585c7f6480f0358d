import TypeAtlas.Proofs.Validation.Defect
import TypeAtlas.Validation.Report

namespace TypeAtlas.Validation

open Json (Value)
open Schema (Field Template)

-- A template that can have instances.
def Concrete (schema : Schema) (name : String) (template : Template) : Prop :=
  schema.templates.get? name = some template ∧ template.isAbstract = false

-- Instances that nothing is wrong with.
structure Clean (thresholds : Thresholds) (template : Template) (items : List Value) : Prop where
  nonempty : items ≠ []
  named : ∀ item ∈ items, Named thresholds item
  sound : ¬ HasDefect thresholds template items
  present : ∀ first ∈ items.head?, HasFields thresholds template first

-- Each template that can have instances has clean ones, and there is such a template.
def AllClean (schema : Schema) (source : String → Option InstanceFile) (thresholds : Thresholds) :
    Prop :=
  (∃ name template, Concrete schema name template) ∧
    ∀ name template, Concrete schema name template →
      ∃ items, source name = some (.instances items) ∧ Clean thresholds template items

-- What fails a run by itself.
inductive Broken (schema : Schema) (source : String → Option InstanceFile)
    (thresholds : Thresholds) : Prop
  | noFile : (∀ name template, Concrete schema name template → source name = none) →
      Broken schema source thresholds
  | unreadable {name : String} {template : Template} : Concrete schema name template →
      source name = some .unreadable → Broken schema source thresholds
  | defect {name : String} {template : Template} {items : List Value} :
      Concrete schema name template → source name = some (.instances items) →
      HasDefect thresholds template items → Broken schema source thresholds

variable {schema : Schema} {source : String → Option InstanceFile} {thresholds : Thresholds}
  {name : String}

theorem concrete_iff {template : Template} :
    schema.concrete.get? name = some template ↔ Concrete schema name template := by
  rw [Schema.concrete, NameMap.get?_filter_eq_some_iff, Concrete, Bool.not_eq_true']

theorem mem_concrete_names_iff :
    name ∈ schema.concrete.names ↔ ∃ template, Concrete schema name template := by
  simp only [NameMap.mem_names_iff, NameMap.contains_iff, concrete_iff]

-- The files that are read are those of the templates that can have instances.
theorem load_eq_some_iff {file : InstanceFile} :
    NameMap.get? (load schema source) name = some file ↔
      (∃ template, Concrete schema name template) ∧ source name = some file := by
  have hnames : (schema.concrete.names.map fun name => name).Nodup := by
    rw [List.map_id']
    exact NameMap.names_nodup _
  rw [load, NameMap.get?_ofList_filterMap hnames, ← mem_concrete_names_iff]
  constructor
  · rintro ⟨_, hname, rfl, hfile⟩
    exact ⟨hname, hfile⟩
  · rintro ⟨hname, hfile⟩
    exact ⟨name, hname, rfl, hfile⟩

theorem load_isEmpty_iff :
    NameMap.isEmpty (load schema source) = true ↔
      ∀ name template, Concrete schema name template → source name = none := by
  rw [load, NameMap.isEmpty_ofList_iff, List.filterMap_eq_nil_iff]
  simp only [mem_concrete_names_iff, Option.map_eq_none_iff, forall_exists_index]

theorem count_pos_iff {report : Validation} {level : Level} :
    0 < report.count level ↔ ∃ check ∈ report.checks, check.level = level := by
  simp [count, List.countP_pos_iff]

theorem verdict_pass_iff {report : Validation} :
    report.verdict = .pass ↔ report.noData = false ∧ ∀ check ∈ report.checks, check.Good := by
  have hgood : (∀ check ∈ report.checks, check.Good) ↔
      ¬ 0 < report.count .fail ∧ ¬ 0 < report.count .warn := by
    simp only [count_pos_iff, not_exists, not_and, ← forall_and, Check.Good, ne_eq]
  rw [hgood, verdict]
  cases report.noData with
  | true => simp
  | false =>
      by_cases hfail : 0 < report.count .fail
      · simp [hfail]
      · by_cases hwarn : 0 < report.count .warn
        · simp [hfail, hwarn]
        · simp [hfail, hwarn]

theorem verdict_of_noData {report : Validation} (h : report.noData = true) :
    report.verdict = .fail := by
  simp [verdict, h]

theorem verdict_of_fail {report : Validation} {check : Check} (h : check ∈ report.checks)
    (hfail : check.level = .fail) : report.verdict = .fail := by
  have hcount : 0 < report.count .fail := count_pos_iff.mpr ⟨check, h, hfail⟩
  simp [verdict, hcount]

theorem exitCode_eq_zero_iff {verdict : Verdict} : verdict.exitCode = 0 ↔ verdict = .pass := by
  cases verdict <;> decide

theorem run_noData (schema : Schema) (source : String → Option InstanceFile)
    (thresholds : Thresholds) :
    (run schema source thresholds).noData = NameMap.isEmpty (load schema source) := by
  rw [run]
  split
  · rename_i h
    exact h.symm
  · rename_i h
    exact (Bool.eq_false_iff.mpr h).symm

theorem run_checks (thresholds : Thresholds)
    (h : NameMap.isEmpty (load schema source) = false) :
    (run schema source thresholds).checks =
      checkCoverage schema (load schema source) thresholds ++
        checkNames (load schema source) thresholds ++
          checkFields schema (load schema source) thresholds ++
            checkTypes schema (load schema source) thresholds := by
  rw [run, h]
  rfl

-- Which template a file that was read belongs to.
theorem concrete_of_load {template : Template} {file : InstanceFile}
    (htemplate : schema.templates.get? name = some template)
    (hfile : NameMap.get? (load schema source) name = some file) :
    Concrete schema name template ∧ source name = some file := by
  obtain ⟨⟨other, hother⟩, hsource⟩ := load_eq_some_iff.mp hfile
  obtain rfl := Option.some.inj (htemplate.symm.trans hother.1)
  exact ⟨hother, hsource⟩

-- The instance whose keys count is the first one where all have names.
theorem representative?_eq_some_iff {items : List Value} {members : List (String × Value)}
    (h : ∀ item ∈ items, Named thresholds item) :
    representative? items = some members ↔ items.head? = some (.obj members) := by
  cases items with
  | nil => simp [representative?]
  | cons first rest =>
      obtain ⟨others, name, rfl, hget, hne, hname⟩ := h first List.mem_cons_self
      rw [representative?_cons ⟨others, name, rfl, hget, hne, hname⟩]
      simp [Value.members?]

-- The checks together find no fault if each file that is expected is there and clean.
theorem run_good_iff (h : NameMap.isEmpty (load schema source) = false) :
    (∀ check ∈ (run schema source thresholds).checks, check.Good) ↔
      ∀ name template, Concrete schema name template →
        ∃ items, source name = some (.instances items) ∧ Clean thresholds template items := by
  simp only [run_checks thresholds h, List.forall_mem_append, checkCoverage_good, checkNames_good,
    checkFields_good, checkTypes_good]
  constructor
  · rintro ⟨⟨⟨hcoverage, hnames⟩, hfields⟩, htypes⟩ name template htemplate
    obtain ⟨file, hfile⟩ := NameMap.contains_iff.mp
      (hcoverage name (mem_concrete_names_iff.mpr ⟨template, htemplate⟩))
    obtain ⟨items, rfl, hnonempty, hnamed⟩ := hnames name file hfile
    refine ⟨items, (load_eq_some_iff.mp hfile).2, hnonempty, hnamed,
      htypes name template items htemplate.1 hfile, ?_⟩
    intro first hfirst
    obtain ⟨members, -, rfl, -⟩ := hnamed first (List.mem_of_mem_head? hfirst)
    exact hfields name template items members htemplate.1 hfile
      ((representative?_eq_some_iff hnamed).mpr hfirst)
  · intro hclean
    refine ⟨⟨⟨?_, ?_⟩, ?_⟩, ?_⟩
    · intro name hname
      obtain ⟨template, htemplate⟩ := mem_concrete_names_iff.mp hname
      obtain ⟨items, hitems, -⟩ := hclean name template htemplate
      exact NameMap.contains_iff.mpr ⟨_, load_eq_some_iff.mpr ⟨⟨template, htemplate⟩, hitems⟩⟩
    · intro name file hfile
      obtain ⟨⟨template, htemplate⟩, hsource⟩ := load_eq_some_iff.mp hfile
      obtain ⟨items, hitems, hall⟩ := hclean name template htemplate
      obtain rfl := Option.some.inj (hsource.symm.trans hitems)
      exact ⟨items, rfl, hall.nonempty, hall.named⟩
    · intro name template items members htemplate hfile hmembers
      obtain ⟨hconcrete, hsource⟩ := concrete_of_load htemplate hfile
      obtain ⟨_, hitems, hall⟩ := hclean name template hconcrete
      cases hsource.symm.trans hitems
      exact hall.present _ ((representative?_eq_some_iff hall.named).mp hmembers)
    · intro name template items htemplate hfile
      obtain ⟨hconcrete, hsource⟩ := concrete_of_load htemplate hfile
      obtain ⟨_, hitems, hall⟩ := hclean name template hconcrete
      cases hsource.symm.trans hitems
      exact hall.sound

-- Without files there is no such template, or one that lacks its file, so a pass needs some.
theorem run_pass_iff :
    (run schema source thresholds).verdict = .pass ↔ AllClean schema source thresholds := by
  rw [verdict_pass_iff, run_noData, AllClean]
  constructor
  · rintro ⟨hfiles, hgood⟩
    have hclean := (run_good_iff hfiles).mp hgood
    refine ⟨?_, hclean⟩
    by_contra hnone
    have hempty : NameMap.isEmpty (load schema source) = true :=
      load_isEmpty_iff.mpr fun name template h => absurd ⟨name, template, h⟩ hnone
    rw [hfiles] at hempty
    cases hempty
  · rintro ⟨⟨name, template, htemplate⟩, hclean⟩
    have hfiles : NameMap.isEmpty (load schema source) = false := by
      rw [← Bool.not_eq_true, load_isEmpty_iff]
      intro hnone
      obtain ⟨items, hitems, -⟩ := hclean name template htemplate
      cases hitems.symm.trans (hnone name template htemplate)
    exact ⟨hfiles, (run_good_iff hfiles).mpr hclean⟩

theorem run_fail_of_broken (h : Broken schema source thresholds) :
    (run schema source thresholds).verdict = .fail := by
  cases hfiles : NameMap.isEmpty (load schema source) with
  | true => exact verdict_of_noData ((run_noData schema source thresholds).trans hfiles)
  | false =>
      have hchecks := run_checks thresholds hfiles
      cases h with
      | noFile hnone => cases hfiles.symm.trans (load_isEmpty_iff.mpr hnone)
      | @unreadable name template htemplate hsource =>
          have hfile := load_eq_some_iff.mpr ⟨⟨template, htemplate⟩, hsource⟩
          have hcheck := @mem_checkNames (load schema source) thresholds name _ hfile
          refine verdict_of_fail ?_ (rfl : (Check.unreadable name).level = .fail)
          rw [hchecks]
          exact List.mem_append_left _ (List.mem_append_left _ (List.mem_append_right _ hcheck))
      | @defect name template items htemplate hsource hdefect =>
          have hfile := load_eq_some_iff.mpr ⟨⟨template, htemplate⟩, hsource⟩
          obtain ⟨check, hcheck, hfail⟩ := exists_fail_of_hasDefect hdefect
          refine verdict_of_fail ?_ hfail
          rw [hchecks]
          exact List.mem_append_right _ (mem_checkTypes htemplate.1 hfile hcheck)

-- A pass means clean data everywhere, and no other file or limit outweighs what fails a run.
theorem run_verdict (schema : Schema) (source : String → Option InstanceFile)
    (thresholds : Thresholds) :
    ((run schema source thresholds).verdict = .pass ↔ AllClean schema source thresholds) ∧
      ((run schema source thresholds).verdict.exitCode = 0 ↔ AllClean schema source thresholds) ∧
      (Broken schema source thresholds → (run schema source thresholds).verdict = .fail ∧
        (run schema source thresholds).verdict.exitCode = 2) := by
  refine ⟨run_pass_iff, exitCode_eq_zero_iff.trans run_pass_iff, fun hbroken => ?_⟩
  have hfail := run_fail_of_broken hbroken
  exact ⟨hfail, by rw [hfail]; rfl⟩

-- A template that declares a field twice.
def byteField : Field := ⟨"hp", "byte", "0x10", .primitive, none⟩

def intField : Field := ⟨"hp", "int", "0x14", .primitive, none⟩

def unitTemplate : Template := ⟨none, false, [byteField, intField]⟩

def unitSchema : Schema where
  version := "1.0.0"
  hash := ""
  enums := .empty
  structs := .empty
  embedded := .empty
  templates := .ofList [("UnitTemplate", unitTemplate)]
  inheritance := .empty

def unitItems (hp : Value) : List Value :=
  [.obj [("hp", hp), ("name", .str "Rook")]]

def unitSource (hp : Value) : String → Option InstanceFile
  | "UnitTemplate" => some (.instances (unitItems hp))
  | _ => none

theorem unit_concrete : Concrete unitSchema "UnitTemplate" unitTemplate :=
  ⟨by decide +kernel, rfl⟩

theorem unit_run_fails :
    Broken unitSchema (unitSource (.bool true)) .standard ∧
      (run unitSchema (unitSource (.bool true)) .standard).verdict = .fail ∧
      (run unitSchema (unitSource (.bool true)) .standard).verdict.exitCode = 2 := by
  have hchecked : Checked unitTemplate intField :=
    ⟨rfl, [byteField], [], rfl, by simp⟩
  have hsampled : Sampled .standard (unitItems (.bool true)) intField (.bool true) :=
    ⟨_, List.mem_cons_self, rfl⟩
  have hproblem : problem? .standard intField.declaredType (.bool true) ≠ none :=
    Option.isSome_iff_ne_none.mp (by decide +kernel)
  have hbroken : Broken unitSchema (unitSource (.bool true)) .standard :=
    .defect unit_concrete rfl ⟨intField, .bool true, hchecked, hsampled, hproblem⟩
  exact ⟨hbroken, (run_verdict unitSchema (unitSource (.bool true)) .standard).2.2 hbroken⟩

-- A value that only the first of two fields with one name rules out is not found.
theorem unit_run_passes_hidden :
    (run unitSchema (unitSource (.whole 300)) .standard).verdict = .pass ∧
      Concrete unitSchema "UnitTemplate" unitTemplate ∧
      unitSource (.whole 300) "UnitTemplate" = some (.instances (unitItems (.whole 300))) ∧
      byteField ∈ unitTemplate.fields ∧ byteField.category = .primitive ∧
      Sampled .standard (unitItems (.whole 300)) byteField (.whole 300) ∧
      problem? .standard byteField.declaredType (.whole 300) ≠ none := by
  have hsampled : Sampled .standard (unitItems (.whole 300)) byteField (.whole 300) :=
    ⟨_, List.mem_cons_self, rfl⟩
  have hproblem : problem? .standard byteField.declaredType (.whole 300) ≠ none :=
    Option.isSome_iff_ne_none.mp (by decide +kernel)
  exact ⟨by decide +kernel, unit_concrete, rfl, List.mem_cons_self, rfl, hsampled, hproblem⟩

end TypeAtlas.Validation
