import Mathlib.Data.List.Nodup
import Mathlib.Data.List.Pairwise
import Mathlib.Data.List.Perm.Basic
import TypeAtlas.Proofs.Json.Whole

namespace TypeAtlas.Json

theorem bind_eq_ok_iff {ε α β : Type} {x : Except ε α} {f : α → Except ε β} {b : β} :
    (x >>= f) = .ok b ↔ ∃ a, x = .ok a ∧ f a = .ok b := by
  cases x <;> simp [bind, Except.bind]

namespace Field

variable {σ : Type} {fields : List (Field σ)} {members : List (Option String × Node)}

def names (field : Field σ) : List String :=
  field.name :: field.otherNames

theorem answers_iff {field : Field σ} {name : String} :
    field.answers name = true ↔ name ∈ field.names := by
  rw [answers, names, List.mem_cons, Bool.or_eq_true, beq_iff_eq, List.contains_iff_mem,
    eq_comm (a := name)]

-- No name belongs to two fields, so the field that answers to a name is found by it.
theorem find?_answers (hnames : (fields.flatMap names).Nodup) {field : Field σ} {name : String}
    (hmem : field ∈ fields) (hname : name ∈ field.names) :
    fields.find? (fun field => field.answers name) = some field := by
  induction fields with
  | nil => cases hmem
  | cons head fields ih =>
      rw [List.flatMap_cons, List.nodup_append'] at hnames
      obtain ⟨-, hrest, hdisjoint⟩ := hnames
      rcases List.mem_cons.mp hmem with rfl | hmem
      · rw [List.find?_cons, answers_iff.mpr hname]
      · have hother : head.answers name = false := Bool.eq_false_iff.mpr fun h =>
          hdisjoint (answers_iff.mp h) (List.mem_flatMap.mpr ⟨field, hmem, hname⟩)
        rw [List.find?_cons, hother]
        exact ih hrest hmem

theorem find?_answers_eq_none {name : String} (h : ∀ field ∈ fields, name ∉ field.names) :
    fields.find? (fun field => field.answers name) = none := by
  apply List.find?_eq_none.mpr
  intro field hfield hanswers
  exact h field hfield (answers_iff.mp hanswers)

-- All that reading a member can do: pass it over, or read it into a field that has no value yet.
theorem readMember_eq_ok_iff {seen seen' : List String} {s s' : σ}
    {member : Option String × Node} :
    readMember fields (seen, s) member = .ok (seen', s') ↔
      ∃ name, member.1 = some name ∧
        ((fields.find? (fun field => field.answers name) = none ∧ member.2.skip = .ok () ∧
            seen' = seen ∧ s' = s) ∨
          ∃ field, fields.find? (fun field => field.answers name) = some field ∧
            field.name ∉ seen ∧ field.read member.2 s = .ok s' ∧ seen' = field.name :: seen) := by
  obtain ⟨key, node⟩ := member
  cases key with
  | none => simp [readMember, keyText, bind, Except.bind]
  | some name =>
      simp only [readMember, keyText, bind_eq_ok_iff, Except.ok.injEq, exists_eq_left',
        Option.some.injEq]
      cases fields.find? fun field => field.answers name with
      | none =>
          cases node.skip <;>
            simp [bind, Except.bind, pure, Except.pure, eq_comm (a := seen), eq_comm (a := s)]
      | some field =>
          by_cases hseen : field.name ∈ seen
          · simp [hseen]
          · simp [hseen, bind_eq_ok_iff, pure, Except.pure, eq_comm (a := field.name :: seen),
              and_comm]

theorem foldlM_readMember_cons {member : Option String × Node} {state last : List String × σ} :
    (member :: members).foldlM (readMember fields) state = .ok last ↔
      ∃ next, readMember fields state member = .ok next ∧
        members.foldlM (readMember fields) next = .ok last := by
  rw [List.foldlM_cons, bind_eq_ok_iff]

-- Two fields whose values go into different parts of the record.
def Apart (f g : Field σ) : Prop :=
  ∀ a b s t, (∃ u, f.read a s = .ok u ∧ g.read b u = .ok t) ↔
    ∃ u, g.read b s = .ok u ∧ f.read a u = .ok t

instance : Std.Symm (@Apart σ) where
  symm _ _ h a b s t := (h b a s t).symm

-- States with one record, whose given fields are the same in any order.
def Same (a b : List String × σ) : Prop :=
  a.1.Perm b.1 ∧ a.2 = b.2

theorem Same.readMember {member : Option String × Node} {a b a' : List String × σ}
    (hsame : Same a b) (h : readMember fields a member = .ok a') :
    ∃ b', readMember fields b member = .ok b' ∧ Same a' b' := by
  obtain ⟨seen, s⟩ := a
  obtain ⟨seenB, t⟩ := b
  obtain ⟨seen', s'⟩ := a'
  obtain ⟨hperm, heq⟩ := hsame
  dsimp only at hperm heq
  subst heq
  obtain ⟨name, hname, ⟨hfind, hskip, rfl, rfl⟩ | ⟨field, hfind, hnew, hread, rfl⟩⟩ :=
    readMember_eq_ok_iff.mp h
  · exact ⟨(seenB, s'), readMember_eq_ok_iff.mpr ⟨name, hname, .inl ⟨hfind, hskip, rfl, rfl⟩⟩,
      hperm, rfl⟩
  · have hnewB : field.name ∉ seenB := fun hmem => hnew (hperm.mem_iff.mpr hmem)
    exact ⟨(field.name :: seenB, s'),
      readMember_eq_ok_iff.mpr ⟨name, hname, .inr ⟨field, hfind, hnewB, hread, rfl⟩⟩,
      hperm.cons field.name, rfl⟩

theorem Same.foldlM {a b last : List String × σ} (hsame : Same a b)
    (h : members.foldlM (Field.readMember fields) a = .ok last) :
    ∃ last', members.foldlM (Field.readMember fields) b = .ok last' ∧ Same last last' := by
  induction members generalizing a b with
  | nil =>
      cases h
      exact ⟨b, rfl, hsame⟩
  | cons member members ih =>
      obtain ⟨next, hstep, hrest⟩ := foldlM_readMember_cons.mp h
      obtain ⟨next', hstep', hsame'⟩ := hsame.readMember hstep
      obtain ⟨last', hrest', hlast⟩ := ih hsame' hrest
      exact ⟨last', foldlM_readMember_cons.mpr ⟨next', hstep', hrest'⟩, hlast⟩

-- Two members that are read one after the other can be read the other way round.
theorem readMember_swap (hapart : fields.Pairwise Apart) {m n : Option String × Node}
    {a b c : List String × σ} (hm : readMember fields a m = .ok b)
    (hn : readMember fields b n = .ok c) :
    ∃ b' c', readMember fields a n = .ok b' ∧ readMember fields b' m = .ok c' ∧ Same c c' := by
  obtain ⟨seen, s⟩ := a
  obtain ⟨seenB, t⟩ := b
  obtain ⟨seenC, u⟩ := c
  obtain ⟨name, hname, hfirst⟩ := readMember_eq_ok_iff.mp hm
  obtain ⟨name', hname', hsecond⟩ := readMember_eq_ok_iff.mp hn
  rcases hfirst with ⟨hfind, hskip, rfl, rfl⟩ | ⟨f, hfind, hnew, hread, rfl⟩
  · -- the first is passed over, in whatever state it is met
    refine ⟨(seenC, u), (seenC, u), hn, ?_, .refl _, rfl⟩
    exact readMember_eq_ok_iff.mpr ⟨name, hname, .inl ⟨hfind, hskip, rfl, rfl⟩⟩
  · rcases hsecond with ⟨hfind', hskip', rfl, rfl⟩ | ⟨g, hfind', hnew', hread', rfl⟩
    · refine ⟨(seen, s), (f.name :: seen, u), ?_, hm, .refl _, rfl⟩
      exact readMember_eq_ok_iff.mpr ⟨name', hname', .inl ⟨hfind', hskip', rfl, rfl⟩⟩
    · have hne : f ≠ g := by
        rintro rfl
        exact hnew' List.mem_cons_self
      have hfg : f.Apart g := hapart.forall
        (List.mem_of_find?_eq_some hfind) (List.mem_of_find?_eq_some hfind') hne
      obtain ⟨v, hg, hf⟩ := (hfg _ _ _ _).mp ⟨t, hread, hread'⟩
      obtain ⟨hname_ne, hnewG⟩ := not_or.mp (fun h => hnew' (List.mem_cons.mpr h))
      have hnewF : f.name ∉ g.name :: seen := by
        rintro hmem
        rcases List.mem_cons.mp hmem with h | h
        · exact hname_ne h.symm
        · exact hnew h
      refine ⟨(g.name :: seen, v), (f.name :: g.name :: seen, u), ?_, ?_, .swap _ _ _, rfl⟩
      · exact readMember_eq_ok_iff.mpr ⟨name', hname', .inr ⟨g, hfind', hnewG, hg, rfl⟩⟩
      · exact readMember_eq_ok_iff.mpr ⟨name, hname, .inr ⟨f, hfind, hnewF, hf, rfl⟩⟩

theorem foldlM_perm (hapart : fields.Pairwise Apart) {members' : List (Option String × Node)}
    (hperm : members.Perm members') {a last : List String × σ}
    (h : members.foldlM (readMember fields) a = .ok last) :
    ∃ last', members'.foldlM (readMember fields) a = .ok last' ∧ Same last last' := by
  induction hperm generalizing a last with
  | nil => exact ⟨last, h, .refl _, rfl⟩
  | cons member _ ih =>
      obtain ⟨next, hstep, hrest⟩ := foldlM_readMember_cons.mp h
      obtain ⟨last', hrest', hsame⟩ := ih hrest
      exact ⟨last', foldlM_readMember_cons.mpr ⟨next, hstep, hrest'⟩, hsame⟩
  | swap m n rest =>
      obtain ⟨b, hn, h⟩ := foldlM_readMember_cons.mp h
      obtain ⟨c, hm, hrest⟩ := foldlM_readMember_cons.mp h
      obtain ⟨b', c', hm', hn', hsame⟩ := readMember_swap hapart hn hm
      obtain ⟨last', hrest', hlast⟩ := hsame.foldlM hrest
      refine ⟨last', foldlM_readMember_cons.mpr ⟨b', hm', ?_⟩, hlast⟩
      exact foldlM_readMember_cons.mpr ⟨c', hn', hrest'⟩
  | trans _ _ ih ih' =>
      obtain ⟨middle, hmiddle, hsame⟩ := ih h
      obtain ⟨last', hlast, hsame'⟩ := ih' hmiddle
      exact ⟨last', hlast, hsame.1.trans hsame'.1, hsame.2.trans hsame'.2⟩

theorem absent?_eq_none_iff {seen : List String} :
    absent? fields seen = none ↔
      ∀ field ∈ fields, field.presence = .required → field.name ∈ seen := by
  simp [absent?, List.find?_eq_none]

theorem record_obj_eq_ok_iff {start x : σ} :
    record fields start (.obj members .closed) = .ok x ↔
      ∃ seen, members.foldlM (readMember fields) ([], start) = .ok (seen, x) ∧
        ∀ field ∈ fields, field.presence = .required → field.name ∈ seen := by
  constructor
  · intro h
    simp only [record, bind_eq_ok_iff] at h
    obtain ⟨⟨seen, y⟩, hmembers, _, -, h⟩ := h
    cases habsent : absent? fields seen with
    | some field =>
        simp only [habsent] at h
        cases h
    | none =>
        simp only [habsent] at h
        cases h
        exact ⟨seen, hmembers, absent?_eq_none_iff.mp habsent⟩
  · rintro ⟨seen, hmembers, hrequired⟩
    have habsent := absent?_eq_none_iff.mpr hrequired
    simp only [record, hmembers, bind, Except.bind, Ending.finish, habsent]
    rfl

-- The order of the members has no meaning.
theorem record_perm (hapart : fields.Pairwise Apart) {members' : List (Option String × Node)}
    (hperm : members.Perm members') {start x : σ}
    (h : record fields start (.obj members .closed) = .ok x) :
    record fields start (.obj members' .closed) = .ok x := by
  obtain ⟨seen, hmembers, hrequired⟩ := record_obj_eq_ok_iff.mp h
  obtain ⟨⟨seen', x'⟩, hmembers', hseen, rfl⟩ := foldlM_perm hapart hperm hmembers
  refine record_obj_eq_ok_iff.mpr ⟨seen', hmembers', ?_⟩
  intro field hfield hpresence
  exact hseen.mem_iff.mp (hrequired field hfield hpresence)

-- Members with a name that no field has, and any values, have no meaning.
theorem record_unknown {unknown : List (Option String × Node)} {start x : σ}
    (hunknown : ∀ member ∈ unknown,
      (∃ name, member.1 = some name ∧ ∀ field ∈ fields, name ∉ field.names) ∧ member.2.Whole)
    (h : record fields start (.obj members .closed) = .ok x) :
    record fields start (.obj (members ++ unknown) .closed) = .ok x := by
  obtain ⟨seen, hmembers, hrequired⟩ := record_obj_eq_ok_iff.mp h
  refine record_obj_eq_ok_iff.mpr ⟨seen, ?_, hrequired⟩
  rw [List.foldlM_append, bind_eq_ok_iff]
  refine ⟨_, hmembers, ?_⟩
  clear hmembers h
  induction unknown with
  | nil => rfl
  | cons member unknown ih =>
      obtain ⟨⟨⟨name, hname, hnone⟩, hwhole⟩, hrest⟩ := List.forall_mem_cons.mp hunknown
      refine foldlM_readMember_cons.mpr ⟨(seen, x), ?_, ih hrest⟩
      exact readMember_eq_ok_iff.mpr
        ⟨name, hname, .inl ⟨find?_answers_eq_none hnone, hwhole.skip, rfl, rfl⟩⟩

end Field

end TypeAtlas.Json
