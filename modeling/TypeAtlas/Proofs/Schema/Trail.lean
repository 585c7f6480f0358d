import Mathlib.Data.List.Chain
import Mathlib.Data.List.Nodup

namespace TypeAtlas.Schema

variable {α : Type} {next : α → Option α} {limit : Nat} {below : List α} {place : α}

-- The places that a walk comes by behind a place, at most so many. It comes by none of `below` and by
-- none twice, and it ends only where going on would break that.
structure IsTrail (next : α → Option α) (limit : Nat) (below : List α) (place : α)
    (places : List α) : Prop where
  linked : (place :: places).IsChain fun a b => next a = some b
  fresh : ∀ x ∈ places, x ∉ below
  distinct : places.Nodup
  bounded : places.length ≤ limit
  ends : ∀ last ∈ (place :: places).getLast?, ∀ following, next last = some following →
    following ∈ below ∨ following ∈ places ∨ places.length = limit

theorem isTrail_nil_iff : IsTrail next limit below place [] ↔
    ∀ following, next place = some following → following ∈ below ∨ limit = 0 := by
  constructor
  · intro h following hnext
    rcases h.ends place rfl following hnext with hseen | hplaces | hlength
    · exact .inl hseen
    · cases hplaces
    · exact .inr hlength.symm
  · intro h
    refine ⟨List.isChain_singleton place, nofun, List.nodup_nil, Nat.zero_le limit, ?_⟩
    rintro last ⟨⟩ following hnext
    rcases h following hnext with hseen | hzero
    · exact .inl hseen
    · exact .inr (.inr hzero.symm)

-- Behind its first step a trail is a trail of that place, with one step less.
theorem isTrail_cons_iff {following : α} {places : List α} :
    IsTrail next (limit + 1) below place (following :: places) ↔
      next place = some following ∧ following ∉ below ∧
        IsTrail next limit (following :: below) following places := by
  constructor
  · rintro ⟨hlinked, hfresh, hdistinct, hbounded, hends⟩
    obtain ⟨hnext, hlinked⟩ := List.isChain_cons_cons.mp hlinked
    obtain ⟨hnew, hdistinct⟩ := List.nodup_cons.mp hdistinct
    obtain ⟨hfollowing, hfresh⟩ := List.forall_mem_cons.mp hfresh
    refine ⟨hnext, hfollowing, hlinked, ?_, hdistinct, Nat.le_of_succ_le_succ hbounded, ?_⟩
    · intro x hx hseen
      rcases List.mem_cons.mp hseen with rfl | hseen
      · exact hnew hx
      · exact hfresh x hx hseen
    · intro last hlast after hafter
      rw [List.getLast?_cons_cons] at hends
      rcases hends last hlast after hafter with hbelow | hplaces | hlength
      · exact .inl (List.mem_cons_of_mem _ hbelow)
      · rcases List.mem_cons.mp hplaces with rfl | hplaces
        · exact .inl List.mem_cons_self
        · exact .inr (.inl hplaces)
      · exact .inr (.inr (Nat.succ.inj hlength))
  · rintro ⟨hnext, hfollowing, hlinked, hfresh, hdistinct, hbounded, hends⟩
    refine ⟨List.isChain_cons_cons.mpr ⟨hnext, hlinked⟩, ?_, ?_, Nat.succ_le_succ hbounded, ?_⟩
    · refine List.forall_mem_cons.mpr ⟨hfollowing, fun x hx hseen => ?_⟩
      exact hfresh x hx (List.mem_cons_of_mem _ hseen)
    · refine List.nodup_cons.mpr ⟨fun hmem => ?_, hdistinct⟩
      exact hfresh following hmem List.mem_cons_self
    · intro last hlast after hafter
      rw [List.getLast?_cons_cons] at hlast
      rcases hends last hlast after hafter with hbelow | hplaces | hlength
      · rcases List.mem_cons.mp hbelow with rfl | hbelow
        · exact .inr (.inl List.mem_cons_self)
        · exact .inl hbelow
      · exact .inr (.inl (List.mem_cons_of_mem _ hplaces))
      · exact .inr (.inr (congrArg (· + 1) hlength))

namespace IsTrail

variable {places others : List α}

theorem not_nil {following : α} (h : IsTrail next (limit + 1) below place (following :: places)) :
    ¬IsTrail next (limit + 1) below place [] := by
  intro hnil
  obtain ⟨hnext, hnew, -⟩ := isTrail_cons_iff.mp h
  rcases isTrail_nil_iff.mp hnil following hnext with hseen | hzero
  · exact hnew hseen
  · cases hzero

theorem exists_before {x : α} (h : IsTrail next limit below place places) (hx : x ∈ places) :
    ∃ y, next y = some x := by
  have hlinked := h.linked
  clear h
  induction places generalizing place with
  | nil => cases hx
  | cons following places ih =>
      obtain ⟨hnext, hlinked⟩ := List.isChain_cons_cons.mp hlinked
      rcases List.mem_cons.mp hx with rfl | hx
      · exact ⟨place, hnext⟩
      · exact ih hx hlinked

-- There is one trail behind a place.
theorem unique (h : IsTrail next limit below place places)
    (hother : IsTrail next limit below place others) : places = others := by
  induction limit generalizing below place places others with
  | zero =>
      rw [List.length_eq_zero_iff.mp (Nat.le_zero.mp h.bounded),
        List.length_eq_zero_iff.mp (Nat.le_zero.mp hother.bounded)]
  | succ limit ih =>
      cases places with
      | nil =>
          cases others with
          | nil => rfl
          | cons other others => exact absurd h hother.not_nil
      | cons following places =>
          cases others with
          | nil => exact absurd hother h.not_nil
          | cons other others =>
              obtain ⟨hnext, -, hrest⟩ := isTrail_cons_iff.mp h
              obtain ⟨hnext', -, hrest'⟩ := isTrail_cons_iff.mp hother
              cases hnext.symm.trans hnext'
              rw [ih hrest hrest']

end IsTrail

end TypeAtlas.Schema
