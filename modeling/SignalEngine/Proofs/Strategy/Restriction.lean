import Mathlib.Data.List.Nodup
import Mathlib.Data.List.Perm.Basic
import SignalEngine.Proofs.Session.History
import SignalEngine.Strategy.Registry

/-!
Restricting a registry. Registrations are taken out of the list one after the other, and each gap is
closed with the last of those that are left, so their order is soon lost. What the picked ones and
the others come to together is not: it stays a rearrangement of the registry, and a name that is
still wanted is found among the others if it was ever there.
-/

namespace SignalEngine

section TakeOut

variable {wanted : α → Bool} {xs : List α}

theorem takeOut?_eq_none (h : takeOut? wanted xs = none) : ∀ x ∈ xs, wanted x = false := by
  apply List.findIdx?_eq_none_iff.1
  cases hfind : xs.findIdx? wanted with
  | none => rfl
  | some i =>
      obtain ⟨hi, -⟩ := List.findIdx?_eq_some_iff_getElem.1 hfind
      rw [takeOut?, hfind] at h
      simp [List.getElem?_eq_getElem hi] at h

/-- Closing a gap with the last member rearranges those that are left. -/
theorem perm_dropLast_set {i : Nat} (hi : i < xs.length) (a : α) :
    ((xs.set i (xs.getLastD a)).dropLast).Perm (xs.eraseIdx i) := by
  have hlast : (xs.set i (xs.getLastD a)).getLast? = some (xs.getLastD a) := by
    have hne : xs.length - 1 < xs.length := by omega
    rw [List.getLastD_eq_getLast?, List.getLast?_eq_getElem?, List.getLast?_eq_getElem?,
      List.length_set, List.getElem?_eq_getElem hne, Option.getD_some, List.getElem?_set]
    split
    · rfl
    · exact List.getElem?_eq_getElem hne
  have hsplit := List.dropLast_append_getLast? _ hlast
  apply List.Perm.cons_inv (a := xs.getLastD a)
  apply (List.perm_append_singleton _ _).symm.trans
  rw [hsplit]
  exact List.set_perm_cons_eraseIdx hi _

theorem takeOut?_eq_some {x : α} {others : List α} (h : takeOut? wanted xs = some (x, others)) :
    wanted x = true ∧ (x :: others).Perm xs := by
  rw [takeOut?] at h
  obtain ⟨i, hfind, h⟩ := Option.bind_eq_some_iff.1 h
  obtain ⟨hi, hwanted, -⟩ := List.findIdx?_eq_some_iff_getElem.1 hfind
  rw [List.getElem?_eq_getElem hi] at h
  obtain ⟨rfl, rfl⟩ := Prod.mk.inj (Option.some.inj h)
  refine ⟨hwanted, ?_⟩
  exact ((perm_dropLast_set hi xs[i]).cons xs[i]).trans (List.getElem_cons_eraseIdx_perm hi)

end TakeOut

namespace Registry

theorem mem_names {r : Registry} {name : String} :
    name ∈ r.names ↔ ∃ s ∈ r.registrations, s.name = name :=
  List.mem_map

/-- The registrations of a registry, divided into those under some names and the others. -/
structure Divides (s : Selection) (r : Registry) (names : List String) : Prop where
  perm : (s.picked ++ s.others).Perm r.registrations
  names : s.picked.map Registration.name = names.eraseDups

namespace Divides

variable {s : Selection} {r : Registry} {names : List String} {name : String}

theorem start (r : Registry) : Divides ⟨[], r.registrations⟩ r [] :=
  ⟨.refl _, rfl⟩

theorem any_picked (h : Divides s r names) :
    s.picked.any (fun entry => entry.name == name) = true ↔ name ∈ names := by
  rw [← List.mem_eraseDups, ← h.names, List.mem_map, List.any_eq_true]
  simp only [beq_iff_eq]

theorem pick_repeated (h : Divides s r names) (hmem : name ∈ names) :
    s.pick name = .ok s ∧ Divides s r (names ++ [name]) := by
  refine ⟨if_pos (h.any_picked.2 hmem), h.perm, ?_⟩
  rw [h.names, eraseDups_concat_of_mem hmem]

theorem pick_new (h : Divides s r names) (hnew : name ∉ names) (hname : name ∈ r.names) :
    ∃ s', s.pick name = .ok s' ∧ Divides s' r (names ++ [name]) := by
  have hpicked := mt h.any_picked.1 hnew
  rw [Selection.pick, if_neg hpicked]
  cases htake : takeOut? (fun entry => entry.name == name) s.others with
  | none =>
      -- who has the name is neither picked nor left
      obtain ⟨entry, hentry, rfl⟩ := mem_names.1 hname
      rcases List.mem_append.1 (h.perm.mem_iff.2 hentry) with hmem | hmem
      · exact absurd (List.any_eq_true.2 ⟨entry, hmem, beq_self_eq_true entry.name⟩) hpicked
      · have hother := takeOut?_eq_none htake entry hmem
        exact absurd (beq_self_eq_true entry.name) (Bool.eq_false_iff.1 hother)
  | some found =>
      obtain ⟨entry, others⟩ := found
      obtain ⟨hentry, hperm⟩ := takeOut?_eq_some htake
      refine ⟨_, rfl, ?_, ?_⟩
      · rw [List.append_assoc]
        exact (hperm.append_left s.picked).trans h.perm
      · rw [List.map_append, h.names, eraseDups_concat_of_notMem hnew, List.map_singleton,
          beq_iff_eq.1 hentry]

theorem pick (h : Divides s r names) (hname : name ∈ r.names) :
    ∃ s', s.pick name = .ok s' ∧ Divides s' r (names ++ [name]) := by
  by_cases hmem : name ∈ names
  · exact ⟨s, h.pick_repeated hmem⟩
  · exact h.pick_new hmem hname

theorem pick_unknown (h : Divides s r names) (hname : name ∉ r.names) :
    s.pick name = .error (.notFound name) := by
  have hunknown : ∀ entry ∈ s.picked ++ s.others, entry.name ≠ name := by
    rintro entry hentry rfl
    exact hname (mem_names.2 ⟨entry, h.perm.mem_iff.1 hentry, rfl⟩)
  rw [Selection.pick, if_neg]
  · cases htake : takeOut? (fun entry => entry.name == name) s.others with
    | none => rfl
    | some found =>
        obtain ⟨entry, others⟩ := found
        obtain ⟨hentry, hperm⟩ := takeOut?_eq_some htake
        have hmem : entry ∈ s.others := hperm.mem_iff.1 List.mem_cons_self
        exact absurd (beq_iff_eq.1 hentry) (hunknown entry (List.mem_append_right _ hmem))
  · intro hany
    obtain ⟨entry, hmem, hentry⟩ := List.any_eq_true.1 hany
    exact hunknown entry (List.mem_append_left _ hmem) (beq_iff_eq.1 hentry)

end Divides

section Restrict

variable {r : Registry} {names : List String}

theorem foldlM_pick (h : ∀ name ∈ names, name ∈ r.names) :
    ∃ s, names.foldlM Selection.pick ⟨[], r.registrations⟩ = .ok s ∧ Divides s r names := by
  induction names using List.reverseRecOn with
  | nil => exact ⟨_, rfl, .start r⟩
  | append_singleton names name ih =>
      obtain ⟨s, hrun, hs⟩ := ih fun name hname => h name (List.mem_append_left _ hname)
      have hname := h name (List.mem_append_right _ (List.mem_singleton_self name))
      obtain ⟨s', hpick, hs'⟩ := hs.pick hname
      refine ⟨s', ?_, hs'⟩
      rw [List.foldlM_append, hrun]
      simp only [bind, Except.bind, List.foldlM_cons, List.foldlM_nil, hpick]
      rfl

theorem restrictTo_of_known (h : ∀ name ∈ names, name ∈ r.names) :
    ∃ s, r.restrictTo names = .ok ⟨s.picked⟩ ∧ Divides s r names := by
  obtain ⟨s, hrun, hs⟩ := foldlM_pick h
  refine ⟨s, ?_, hs⟩
  rw [restrictTo, hrun]
  rfl

theorem restrictTo_of_unknown {before after : List String} {missing : String}
    (hbefore : ∀ name ∈ before, name ∈ r.names) (hmissing : missing ∉ r.names) :
    r.restrictTo (before ++ missing :: after) = .error (.notFound missing) := by
  obtain ⟨s, hrun, hs⟩ := foldlM_pick hbefore
  rw [restrictTo, List.foldlM_append, hrun]
  simp only [bind, Except.bind, List.foldlM_cons, hs.pick_unknown hmissing]

end Restrict

/-- A registry that has been made from the empty or the built-in one. -/
inductive Reached : Registry → Prop
  | empty : Reached empty
  | builtIn : Reached builtIn
  | register {r : Registry} (h : Reached r) (new : Registration) : Reached (r.register new)
  | restrictTo {r r' : Registry} {names : List String} (h : Reached r)
      (hok : r.restrictTo names = .ok r') : Reached r'

theorem nodup_register {r : Registry} (h : r.names.Nodup) (new : Registration) :
    (r.register new).names.Nodup := by
  have hnames : (r.register new).names
      = (r.registrations.filter fun old => old.name != new.name).map Registration.name
        ++ [new.name] :=
    List.map_append
  rw [hnames, List.nodup_append]
  refine ⟨h.sublist (List.filter_sublist.map _), List.nodup_singleton _, ?_⟩
  rintro name hmem other hother rfl
  obtain ⟨old, hold, rfl⟩ := List.mem_map.1 hmem
  have hne := (List.mem_filter.1 hold).2
  rw [List.mem_singleton.1 hother] at hne
  exact bne_iff_ne.1 hne rfl

theorem restrictTo_eq (r : Registry) (names : List String) :
    match names.find? (fun name => name ∉ r.names) with
    | some missing => r.restrictTo names = .error (.notFound missing)
    | none => ∃ s, r.restrictTo names = .ok ⟨s.picked⟩ ∧ Divides s r names := by
  cases hfind : names.find? (fun name => name ∉ r.names) with
  | some missing =>
      obtain ⟨hmissing, before, after, rfl, hbefore⟩ := List.find?_eq_some_iff_append.1 hfind
      refine restrictTo_of_unknown (fun name hname => ?_) (of_decide_eq_true hmissing)
      simpa using hbefore name hname
  | none =>
      refine restrictTo_of_known fun name hname => ?_
      simpa using List.find?_eq_none.1 hfind name hname

theorem names_of_restrictTo_eq_ok {r r' : Registry} {names : List String}
    (h : r.restrictTo names = .ok r') : r'.names = names.eraseDups := by
  have hcases := restrictTo_eq r names
  split at hcases
  · simp [hcases] at h
  · obtain ⟨s, hok, hs⟩ := hcases
    rw [hok] at h
    exact Except.ok.inj h ▸ hs.names

theorem Reached.nodup_names {r : Registry} (h : r.Reached) : r.names.Nodup := by
  induction h with
  | empty => exact List.nodup_nil
  | builtIn => decide
  | register _ new ih => exact nodup_register ih new
  | restrictTo _ hok _ =>
      rw [names_of_restrictTo_eq_ok hok]
      exact nodup_eraseDups _

theorem name_of_find? {r : Registry} {name : String} {entry : Registration}
    (h : r.find? name = some entry) : entry.name = name := by
  have hname := List.find?_some h
  exact beq_iff_eq.1 hname

theorem find?_eq_some {r : Registry} (h : r.names.Nodup) {name : String} {entry : Registration} :
    r.find? name = some entry ↔ entry ∈ r.registrations ∧ entry.name = name := by
  constructor
  · intro hfind
    exact ⟨List.mem_of_find?_eq_some hfind, name_of_find? hfind⟩
  · rintro ⟨hmem, rfl⟩
    cases hfind : r.find? entry.name with
    | none => simpa using List.find?_eq_none.1 hfind entry hmem
    | some other =>
        have hother := List.mem_of_find?_eq_some hfind
        rw [List.inj_on_of_nodup_map h hother hmem (name_of_find? hfind)]

theorem find?_eq_none {r : Registry} {name : String} :
    r.find? name = none ↔ name ∉ r.names := by
  simp [Registry.find?, mem_names]

theorem create_eq_of_find? {r r' : Registry} {name : String} (h : r'.find? name = r.find? name)
    (config : String) : r'.create name config = r.create name config := by
  rw [create, create, lookup, lookup, h]

theorem create_of_notMem {r : Registry} {name : String} (h : name ∉ r.names) (config : String) :
    r.create name config = .error (.notFound name) := by
  rw [create, lookup, find?_eq_none.2 h]
  rfl

theorem Divides.find? {s : Selection} {r : Registry} {names : List String} (h : Divides s r names)
    (hr : r.names.Nodup) {name : String} (hname : name ∈ names) :
    ∃ entry, (⟨s.picked⟩ : Registry).find? name = some entry ∧ r.find? name = some entry := by
  have hpicked : (⟨s.picked⟩ : Registry).names = names.eraseDups := h.names
  obtain ⟨entry, hentry, hentryName⟩ :=
    mem_names.1 (hpicked ▸ List.mem_eraseDups.2 hname)
  refine ⟨entry, (find?_eq_some (hpicked ▸ nodup_eraseDups names)).2 ⟨hentry, hentryName⟩, ?_⟩
  have hmem := h.perm.mem_iff.1 (List.mem_append_left s.others hentry)
  exact (find?_eq_some hr).2 ⟨hmem, hentryName⟩

/-- Registries keep their names distinct. Restricting one to some names fails over the first of them
that is unknown. When there is none, the registry left has these names without the repetitions, in
their order; under each of them stands what stood there before, and under no other name anything. -/
theorem restrictTo_selects {r : Registry} (h : r.Reached) (names : List String) :
    r.names.Nodup ∧
      match names.find? (fun name => name ∉ r.names) with
      | some missing => r.restrictTo names = .error (.notFound missing)
      | none => ∃ r', r.restrictTo names = .ok r' ∧ r'.names = names.eraseDups
          ∧ (∀ name ∈ names, ∃ entry, r'.find? name = some entry ∧ r.find? name = some entry
              ∧ ∀ config, r'.create name config = r.create name config)
          ∧ ∀ name ∉ names, r'.find? name = none
              ∧ ∀ config, r'.create name config = .error (.notFound name) := by
  refine ⟨h.nodup_names, ?_⟩
  have hcases := restrictTo_eq r names
  split at hcases
  · exact hcases
  · obtain ⟨s, hok, hs⟩ := hcases
    have hnames : (⟨s.picked⟩ : Registry).names = names.eraseDups := hs.names
    refine ⟨_, hok, hnames, fun name hname => ?_, fun name hname => ?_⟩
    · obtain ⟨entry, hnew, hold⟩ := hs.find? h.nodup_names hname
      exact ⟨entry, hnew, hold, create_eq_of_find? (hnew.trans hold.symm)⟩
    · have hnone : name ∉ (⟨s.picked⟩ : Registry).names := by
        rwa [hnames, List.mem_eraseDups]
      exact ⟨find?_eq_none.2 hnone, create_of_notMem hnone⟩

/-- A repeated name counts once, and a later name is found although the gaps have moved it. -/
theorem restrictTo_selects_repeated :
    builtIn.Reached
      ∧ ["Turtle", "SuperTrendTurtle", "Turtle", "Aldo"].find? (fun name => name ∉ builtIn.names)
        = none
      ∧ ∃ r', builtIn.restrictTo ["Turtle", "SuperTrendTurtle", "Turtle", "Aldo"] = .ok r'
        ∧ r'.names = ["Turtle", "SuperTrendTurtle", "Aldo"] := by
  have hknown : ["Turtle", "SuperTrendTurtle", "Turtle", "Aldo"].find?
      (fun name => name ∉ builtIn.names) = none := by decide
  refine ⟨.builtIn, hknown, ?_⟩
  have hcases := (restrictTo_selects .builtIn ["Turtle", "SuperTrendTurtle", "Turtle", "Aldo"]).2
  rw [hknown] at hcases
  obtain ⟨r', hok, hnames, -⟩ := hcases
  exact ⟨r', hok, hnames⟩

end Registry

end SignalEngine
