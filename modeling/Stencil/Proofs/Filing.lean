import Stencil.Proofs.Ledger
/-! What names mean. Programs are kept for the definitions that they are compiled from, so looking up a name
gives what its closest definition compiles to. -/

namespace Stencil

/-! ## The closest definition -/

namespace Group

/-- The first of some groups that defines a name, with its definition. -/
def closest? (name : String) (groups : List Group) : Option (Group × Definition) :=
  groups.findSome? fun g => (Dict.find? g.templates name).map fun d => (g, d)

theorem closest?_append (name : String) (gs hs : List Group) :
    closest? name (gs ++ hs) = (closest? name gs).or (closest? name hs) := List.findSome?_append

mutual

/-- A group finds the closest definition in it and what it imports, depth first. -/
theorem find?_eq_closest? (name : String) : (g : Group) → g.find? name = closest? name g.tree
  | ⟨group, templates, imports, listener, renderers⟩ => by
      rw [find?, tree, closest?, List.findSome?_cons, ← closest?, ← findIn?_eq_closest? name imports]
      cases Dict.find? templates name <;> rfl

theorem findIn?_eq_closest? (name : String) : (gs : List Group) → findIn? name gs = closest? name (treeIn gs)
  | [] => rfl
  | g :: gs => by
      rw [findIn?, treeIn, closest?_append, ← find?_eq_closest? name g, ← findIn?_eq_closest? name gs]
      cases g.find? name <;> rfl

end

/-- What is closest is defined in one of the groups. -/
theorem mem_of_closest? {name : String} {groups : List Group} {g : Group} {d : Definition}
    (h : closest? name groups = some (g, d)) : g ∈ groups ∧ Dict.find? g.templates name = some d := by
  obtain ⟨h, hm, hd⟩ := List.exists_of_findSome?_eq_some h
  obtain ⟨e, he, heq⟩ := Option.map_eq_some_iff.mp hd
  cases heq
  exact ⟨hm, he⟩

/-- A definition of its own is the closest one for a group. -/
theorem closest?_own {g : Group} {name : String} {d : Definition} (h : Dict.find? g.templates name = some d) :
    closest? name g.tree = some (g, d) := by
  rw [tree_eq, closest?, List.findSome?_cons, h]
  rfl

end Group

/-! ## What looking up gives -/

/-- A program that a definition compiles to. It is the same one among whichever templates it compiles. -/
def Definition.Makes (d : Definition) (name : String) (p : Program) : Prop :=
  ∃ directory, Program.compile directory name d.formals d.source = .ok p

/-- What looking up a name gives when a definition was found for it, or none. -/
def Group.Means (name : String) (found : Option (Group × Definition)) :
    Except Unresolved (Group × Program) → Prop
  | .ok (g, p) => ∃ d, found = some (g, d) ∧ d.Makes name p
  | .error .undefined => found = none
  | .error .compileFailed => found.isSome = true

/-- Each slot is noted, and the programs in slots are compiled from what is noted there. -/
structure Workspace.Filed (w : Workspace) (notes : List Making) : Prop where
  size : w.slots.size = notes.length
  ready : ∀ slot p, w.outcome? slot = some (.ready p) → ∃ name formals source directory,
    notes[slot]? = some (name, formals, source) ∧ Program.compile directory name formals source = .ok p

namespace Workspace.Filed

variable {w : Workspace} {notes : List Making}

theorem of_slots {w' : Workspace} (h : w.Filed notes) (hs : w'.slots = w.slots) : w'.Filed notes := by
  refine ⟨hs ▸ h.size, fun slot p hp => h.ready slot p ?_⟩
  rwa [outcome?, hs] at hp

/-- Compiling a definition gives a program that it makes, if any. -/
theorem compiled (h : w.Filed notes) (g : Group) {name : String} {d : Definition}
    (hn : notes[d.slot]? = some (name, d.formals, d.source)) :
    ∃ o w', (g.compiled name d).run w = (o, w') ∧ w'.Filed notes ∧ ∀ p, o = some p → d.Makes name p := by
  cases ho : w.outcome? d.slot with
  | some o =>
    refine ⟨_, _, Group.compiled_kept g name ho, h, fun p hp => ?_⟩
    cases o with
    | failed retry => cases hp
    | ready q =>
      cases hp
      obtain ⟨_, _, _, directory, hnote, hc⟩ := h.ready _ _ ho
      cases hn.symm.trans hnote
      exact ⟨directory, hc⟩
  | none =>
    obtain ⟨outcome, v, hrun, hv, hp, -⟩ := Group.compiled_fresh g name ho
    have hmade (p : Program) (hp : Program.of? g.directory name d.formals d.source = some p) :
        Program.compile g.directory name d.formals d.source = .ok p := Program.of?_eq_some.mp hp
    refine ⟨_, _, hrun, ⟨(Array.size_modify ..).trans (hv ▸ h.size), fun slot q hq => ?_⟩,
      fun p hp => ⟨_, hmade p hp⟩⟩
    rw [outcome?_settle] at hq
    split at hq
    · rename_i hs
      cases hq
      exact ⟨_, _, _, _, hs.1 ▸ hn, hmade q hp.symm⟩
    · rw [outcome?, hv] at hq
      exact h.ready slot q hq

/-- Looking up a name gives what it means. -/
theorem resolveFound (h : w.Filed notes) (name : String) (found : Option (Group × Definition))
    (hf : ∀ native d, found = some (native, d) → notes[d.slot]? = some (name, d.formals, d.source)) :
    ∃ r w', (Group.resolveFound name found).run w = (r, w') ∧ w'.Filed notes ∧ Group.Means name found r := by
  cases found with
  | none => exact ⟨_, _, rfl, h, rfl⟩
  | some f =>
    obtain ⟨native, d⟩ := f
    obtain ⟨o, w', hrun, hw, hmade⟩ := h.compiled native (hf native d rfl)
    refine ⟨_, w', Group.resolveFound_run hrun, hw, ?_⟩
    cases o with
    | none => exact rfl
    | some p => exact ⟨d, rfl, hmade p rfl⟩

/-- So does looking up among groups whose definitions are noted. -/
theorem closest (h : w.Filed notes) (name : String) {groups : List Group}
    (hg : ∀ g ∈ groups, Group.Noted notes g.templates) : ∃ r w',
      (Group.resolveFound name (Group.closest? name groups)).run w = (r, w') ∧ w'.Filed notes ∧
        Group.Means name (Group.closest? name groups) r := by
  refine h.resolveFound name _ fun native d hf => ?_
  obtain ⟨hm, hd⟩ := Group.mem_of_closest? hf
  exact hg native hm _ (Dict.mem_of_find? hd)

/-- Compiling some definitions of a group keeps what is filed. -/
theorem compileEach (g : Group) : {w : Workspace} → w.Filed notes → (es : List (String × Definition)) →
    Group.Noted notes es → ((g.compileEach es).run w).2.Filed notes
  | _, h, [], _ => h
  | w, h, (name, d) :: rest, hn => by
      obtain ⟨hd, hrest⟩ := List.forall_mem_cons.mp hn
      obtain ⟨o, w', hrun, hw, -⟩ := h.compiled g hd
      rw [Group.compileEach_cons, hrun]
      exact compileEach g hw rest hrest

/-! ## Defining -/

/-- A new slot. -/
theorem push (h : w.Filed notes) (reports : Nat) (texts : Array (List String)) (making : Making) :
    Workspace.Filed { w with slots := w.slots.push ⟨none, reports⟩, reports := texts } (notes ++ [making]) where
  size := by simp [h.size]
  ready slot p hp := by
    simp only [outcome?, Array.getElem?_push] at hp
    split at hp
    · cases hp
    · obtain ⟨name, formals, source, directory, hn, hc⟩ := h.ready slot p hp
      exact ⟨name, formals, source, directory,
        (List.getElem?_append_left (List.getElem?_eq_some_iff.mp hn).1).trans hn, hc⟩

/-- Definitions that are renewed are noted for their new slots. -/
theorem renewEach : {w : Workspace} → {notes : List Making} → w.Filed notes →
    (es : List (String × Definition)) → Group.Noted notes es → ∃ more,
      ((Group.renewEach es).run w).2.Filed (notes ++ more) ∧
        Group.Noted (notes ++ more) ((Group.renewEach es).run w).1
  | w, notes, h, [], _ => ⟨[], (List.append_nil notes).symm ▸ h, nofun⟩
  | w, notes, h, (name, d) :: rest, hn => by
      obtain ⟨hd, hrest⟩ := List.forall_mem_cons.mp hn
      rw [Group.renewEach_cons, Workspace.renew]
      split
      · obtain ⟨more, hw, hr⟩ := renewEach (h.push ((w.slots[d.slot]?.map Slot.reports).getD 0) w.reports
          (name, d.formals, d.source)) rest (Group.Noted.append hrest _)
        rw [List.append_assoc] at hw hr
        refine ⟨[(name, d.formals, d.source)] ++ more, hw, List.forall_mem_cons.mpr ⟨?_, hr⟩⟩
        rw [h.size, List.getElem?_append_right (Nat.le_refl _), Nat.sub_self]
        rfl
      · obtain ⟨more, hw, hr⟩ := renewEach h rest hrest
        have hhere : Group.Noted notes [(name, d)] := List.forall_mem_singleton.mpr hd
        exact ⟨more, hw, List.forall_mem_cons.mpr ⟨hhere.append more _ (List.mem_singleton.mpr rfl), hr⟩⟩

/-- A definition is noted for its slot, and the others of its group for theirs. -/
theorem define (h : w.Filed notes) {g : Group} (hg : Group.Noted notes g.templates) (name : String)
    (formals : Formals) (source : String) : ∃ more,
      ((g.define name formals source).run w).2.Filed (notes ++ more) ∧
        ∀ g', ((g.define name formals source).run w).1 = .ok g' →
          Group.Noted (notes ++ more) g'.templates ∧ g'.imports = g.imports := by
  rw [Group.define_run]
  split
  · exact ⟨[], (List.append_nil notes).symm ▸ h, nofun⟩
  · obtain ⟨more, hw, hr⟩ := h.renewEach g.templates hg
    refine ⟨more ++ [(name, formals, source)], ?_, fun g' he => ?_⟩
    · rw [← List.append_assoc]
      exact hw.push _ _ _
    · cases he
      refine ⟨fun e he => ?_, rfl⟩
      rw [← List.append_assoc]
      rcases Dict.mem_of_mem_insert he with rfl | he
      · rw [hw.size, List.getElem?_append_right (Nat.le_refl _), Nat.sub_self]
        rfl
      · exact hr.append _ e he

end Workspace.Filed

end Stencil
