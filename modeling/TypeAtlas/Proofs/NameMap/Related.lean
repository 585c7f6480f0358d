import Mathlib.Data.List.Forall2
import TypeAtlas.Proofs.NameMap

namespace TypeAtlas.Lookup

variable {α β γ δ : Type}

theorem rel_eq_iff {x y : Option α} : Option.Rel (fun a b => a = b) x y ↔ x = y := by
  cases x <;> cases y <;> simp

theorem isSome_eq_of_rel {R : α → β → Prop} {x : Option α} {y : Option β} (h : Option.Rel R x y) :
    x.isSome = y.isSome := by
  cases h <;> rfl

theorem rel_map {R : α → β → Prop} {S : γ → δ → Prop} {f : α → γ} {g : β → δ}
    (hfg : ∀ {a b}, R a b → S (f a) (g b)) {x : Option α} {y : Option β} (h : Option.Rel R x y) :
    Option.Rel S (x.map f) (y.map g) := by
  cases h with
  | none => exact .none
  | some hab => exact .some (hfg hab)

theorem rel_equivalence {R : α → α → Prop} (h : Equivalence R) : Equivalence (Option.Rel R) where
  refl
    | none => .none
    | some a => .some (h.refl a)
  symm
    | .none => .none
    | .some hab => .some (h.symm hab)
  trans
    | .none, .none => .none
    | .some hab, .some hbc => .some (h.trans hab hbc)

-- Relating what is looked up under every name.
theorem equivalence {R : α → α → Prop} (h : Equivalence R) (lookup : β → String → Option α) :
    Equivalence fun a b => ∀ name, Option.Rel R (lookup a name) (lookup b name) where
  refl a name := (rel_equivalence h).refl (lookup a name)
  symm hab name := (rel_equivalence h).symm (hab name)
  trans hab hbc name := (rel_equivalence h).trans (hab name) (hbc name)

end TypeAtlas.Lookup

namespace TypeAtlas.NameMap

open Lookup

variable {α β : Type}

-- Maps with the same names and related values under each of them.
def Related (R : α → β → Prop) (a : NameMap α) (b : NameMap β) : Prop :=
  ∀ name, Option.Rel R (a.get? name) (b.get? name)

theorem related_eq_iff {a b : NameMap α} : Related (fun x y => x = y) a b ↔ a = b := by
  simp only [Related, rel_eq_iff]
  exact ⟨ext_get?, fun h name => h ▸ rfl⟩

theorem Related.contains_eq {R : α → β → Prop} {a : NameMap α} {b : NameMap β}
    (h : Related R a b) (name : String) : a.contains name = b.contains name := by
  rw [contains_eq_isSome, contains_eq_isSome, isSome_eq_of_rel (h name)]

-- Entries with the same name and related values.
def Entry (R : α → β → Prop) (x : String × α) (y : String × β) : Prop :=
  x.1 = y.1 ∧ R x.2 y.2

theorem Related.names_eq {R : α → β → Prop} {a : NameMap α} {b : NameMap β} (h : Related R a b) :
    a.names = b.names := by
  have hdomain : NameSet.domain a = NameSet.domain b := by
    apply related_eq_iff.mp
    intro name
    rw [NameSet.domain, NameSet.domain, get?_map, get?_map]
    exact rel_map (fun _ => rfl) (h name)
  have hnames := congrArg names hdomain
  simpa [NameSet.domain, names, NameMap.map, Function.comp_def] using hnames

-- Names stand in one order, so related maps list related entries.
theorem Related.entries {R : α → β → Prop} {a : NameMap α} {b : NameMap β} (h : Related R a b) :
    List.Forall₂ (Entry R) a.entries b.entries := by
  have hnames := h.names_eq
  rw [names, names, ← List.forall₂_eq_eq_eq, List.forall₂_map_left_iff, List.forall₂_map_right_iff,
    List.forall₂_iff_zip] at hnames
  rw [List.forall₂_iff_zip]
  refine ⟨hnames.1, ?_⟩
  rintro ⟨name, x⟩ ⟨name', y⟩ hmem
  obtain rfl : name = name' := hnames.2 hmem
  obtain ⟨hx, hy⟩ := List.of_mem_zip hmem
  have hname := h name
  rw [get?_eq_some_iff.mpr hx, get?_eq_some_iff.mpr hy, Option.rel_some_some] at hname
  exact ⟨rfl, hname⟩

end TypeAtlas.NameMap
