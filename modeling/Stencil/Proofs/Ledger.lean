import Stencil.Proofs.Building
import Stencil.Proofs.Mending
import Stencil.Proofs.Slots
/-! A ledger notes for each slot which definition it is for and which program that compiles to. As long as
a workspace agrees with it, what is kept of compiling is what compiling on the spot would give. -/

namespace Stencil

/-- What is noted of a slot. -/
structure Note where
  name : String
  formals : Formals
  source : String
  program : Option Program

/-- What is to be noted of a definition among the templates of a directory. -/
def Note.of (d : Directory) (e : String × Definition) : Note :=
  ⟨e.1, e.2.formals, e.2.source, Program.of? d e.1 e.2.formals e.2.source⟩

/-- The note of the same definition among other templates. -/
def Note.amid (n : Note) (d : Directory) : Note := { n with program := Program.of? d n.name n.formals n.source }

/-- Definitions are noted as they compile among the templates of a directory. -/
def Recorded (ledger : List Note) (d : Directory) (es : List (String × Definition)) : Prop :=
  ∀ e ∈ es, ledger[e.2.slot]? = some (.of d e)

/-- The definitions of a group are noted as they compile in it. -/
abbrev Group.Recorded (ledger : List Note) (g : Group) : Prop := Stencil.Recorded ledger g.directory g.templates

/-- Outcomes are as noted, and failures that are kept for good cannot be mended. -/
structure Workspace.Agrees (w : Workspace) (ledger : List Note) : Prop where
  size : w.slots.size = ledger.length
  outcome : ∀ slot o, w.outcome? slot = some o → ∃ n, ledger[slot]? = some n ∧ o.program? = n.program ∧
    (o = .failed false → ∀ d, Program.of? d n.name n.formals n.source = none)

variable {ledger : List Note} {w : Workspace} {g : Group} {name : String} {definition : Definition}

theorem recorded_cons {d : Directory} {e : String × Definition} {es : List (String × Definition)} :
    Recorded ledger d (e :: es) ↔ ledger[e.2.slot]? = some (.of d e) ∧ Recorded ledger d es :=
  List.forall_mem_cons

theorem Recorded.append {d : Directory} {es : List (String × Definition)} (h : Recorded ledger d es)
    (more : List Note) : Recorded (ledger ++ more) d es := by
  intro e he
  rw [List.getElem?_append_left (List.getElem?_eq_some_iff.mp (h e he)).1]
  exact h e he

/-! ## Compiling -/

namespace Workspace

theorem slots_reportOnce (w : Workspace) (slot : Nat) (listener : Listener) (d : Diagnostic) :
    (w.reportOnce slot listener d).slots = w.slots := by
  unfold reportOnce
  dsimp only
  split <;> rfl

theorem slots_reports (w : Workspace) (slot : Nat) (listener : Listener) (ds : List Diagnostic) :
    (ds.foldl (fun w d => w.reportOnce slot listener d) w).slots = w.slots := by
  induction ds generalizing w with
  | nil => rfl
  | cons d ds ih => exact (ih _).trans (w.slots_reportOnce slot listener d)

theorem slots_delivers (w : Workspace) (listener : Listener) (ds : List Diagnostic) :
    (ds.foldl (fun w d => w.deliver listener d) w).slots = w.slots := by
  induction ds generalizing w with
  | nil => rfl
  | cons d ds ih => exact ih _

end Workspace

/-- What is kept of compiling a definition counts. -/
theorem Group.compiled_kept (g : Group) (name : String) {o : Outcome} (h : w.outcome? definition.slot = some o) :
    (g.compiled name definition).run w = (o.program?, w) := by
  unfold compiled
  simp only [StateT.run_bind, StateT.run_get, pure_bind, h]
  rfl

/-- A definition that was not compiled is compiled. -/
theorem Group.compiled_fresh (g : Group) (name : String) (h : w.outcome? definition.slot = none) :
    ∃ (outcome : Outcome) (v : Workspace), (g.compiled name definition).run w =
        (Program.of? g.directory name definition.formals definition.source, v.settle definition.slot outcome) ∧
      v.slots = w.slots ∧ outcome.program? = Program.of? g.directory name definition.formals definition.source ∧
      (outcome = .failed false → ∀ d, Program.of? d name definition.formals definition.source = none) := by
  unfold compiled Program.of?
  simp only [StateT.run_bind, StateT.run_get, pure_bind, h]
  cases hc : Program.compile g.directory name definition.formals definition.source with
  | ok p => exact ⟨.ready p, w, rfl, rfl, rfl, nofun⟩
  | error e =>
    refine ⟨.failed e.isMendable, _, rfl, w.slots_reports _ _ _, rfl, fun hf => ?_⟩
    exact Program.of?_lasting hc (Outcome.failed.inj hf)

/-- What resolving gives for the program of what was found. -/
def Group.offer (native : Group) : Option Program → Except Unresolved (Group × Program)
  | some program => .ok (native, program)
  | none => .error .compileFailed

/-- What resolving gives when everything is compiled on the spot. -/
def Group.freshly (name : String) : Option (Group × Definition) → Except Unresolved (Group × Program)
  | none => .error .undefined
  | some (native, d) => native.offer (Program.of? native.directory name d.formals d.source)

/-- What resolving gives was found. -/
theorem Group.found_of_freshly {found : Option (Group × Definition)} {native : Group} {program : Program}
    (h : freshly name found = .ok (native, program)) : ∃ d, found = some (native, d) := by
  cases found with
  | none => cases h
  | some f =>
    obtain ⟨group, d⟩ := f
    rw [freshly] at h
    generalize Program.of? group.directory name d.formals d.source = o at h
    cases o with
    | none => cases h
    | some p =>
      cases h
      exact ⟨d, rfl⟩

/-- Resolving does what compiling does. -/
theorem Group.resolveFound_run {native : Group} {o : Option Program} {w' : Workspace}
    (h : (native.compiled name definition).run w = (o, w')) :
    (resolveFound name (some (native, definition))).run w = (native.offer o, w') := by
  have hrun : (resolveFound name (some (native, definition))).run w =
      (native.offer ((native.compiled name definition).run w).1, ((native.compiled name definition).run w).2) := by
    rw [resolveFound, StateT.run_bind]
    generalize (native.compiled name definition).run w = c
    obtain ⟨o, v⟩ := c
    cases o <;> rfl
  rw [hrun, h]

theorem Group.compileEach_cons (g : Group) (d : Definition) (rest : List (String × Definition)) (w : Workspace) :
    (g.compileEach ((name, d) :: rest)).run w =
      (if ((g.compiled name d).run w).1.isNone
        then name :: ((g.compileEach rest).run ((g.compiled name d).run w).2).1
        else ((g.compileEach rest).run ((g.compiled name d).run w).2).1,
        ((g.compileEach rest).run ((g.compiled name d).run w).2).2) := rfl

/-- The names of the definitions that do not compile in a group. -/
def Group.failing (g : Group) (es : List (String × Definition)) : List String :=
  (es.filter fun e => (Program.of? g.directory e.1 e.2.formals e.2.source).isNone).map Prod.fst

namespace Workspace.Agrees

/-- Outcomes are known from the slots alone. -/
theorem of_slots {w' : Workspace} (h : w.Agrees ledger) (hs : w'.slots = w.slots) : w'.Agrees ledger := by
  refine ⟨hs ▸ h.size, fun slot o ho => h.outcome slot o ?_⟩
  rwa [outcome?, hs] at ho

/-- Compiling gives what compiling on the spot would, and goes on agreeing. -/
theorem compiled (h : w.Agrees ledger) (hg : g.Recorded ledger) (he : (name, definition) ∈ g.templates) :
    ∃ w', (g.compiled name definition).run w =
      (Program.of? g.directory name definition.formals definition.source, w') ∧ w'.Agrees ledger := by
  have hnote := hg _ he
  cases ho : w.outcome? definition.slot with
  | some o =>
    obtain ⟨n, hn, hp, -⟩ := h.outcome _ _ ho
    cases hnote.symm.trans hn
    refine ⟨w, ?_, h⟩
    rw [Group.compiled_kept g name ho, hp]
    rfl
  | none =>
    obtain ⟨outcome, v, hrun, hv, hp, hlasting⟩ := Group.compiled_fresh g name ho
    refine ⟨_, hrun, ⟨(Array.size_modify ..).trans (hv ▸ h.size), fun slot o hs => ?_⟩⟩
    rw [outcome?_settle] at hs
    split at hs
    · rename_i heq
      cases hs
      exact ⟨.of g.directory (name, definition), heq.1 ▸ hnote, hp, hlasting⟩
    · rw [outcome?, hv] at hs
      exact h.outcome slot o hs

/-- So does resolving. -/
theorem resolveFound (h : w.Agrees ledger) (name : String) (found : Option (Group × Definition))
    (hf : ∀ native d, found = some (native, d) → native.Recorded ledger ∧ (name, d) ∈ native.templates) :
    ∃ w', (Group.resolveFound name found).run w = (Group.freshly name found, w') ∧ w'.Agrees ledger := by
  cases found with
  | none => exact ⟨w, rfl, h⟩
  | some f =>
    obtain ⟨native, d⟩ := f
    obtain ⟨hg, he⟩ := hf native d rfl
    obtain ⟨w', hrun, hw⟩ := h.compiled hg he
    exact ⟨w', Group.resolveFound_run hrun, hw⟩

/-- So does compiling some definitions of a group. -/
theorem compileEach (hg : g.Recorded ledger) : {w : Workspace} → w.Agrees ledger →
    (es : List (String × Definition)) → es ⊆ g.templates →
    ∃ w', (g.compileEach es).run w = (g.failing es, w') ∧ w'.Agrees ledger
  | w, h, [], _ => ⟨w, rfl, h⟩
  | w, h, (name, d) :: rest, he => by
      obtain ⟨hd, hrest⟩ := List.cons_subset.mp he
      obtain ⟨w₁, hrun, h₁⟩ := h.compiled hg hd
      obtain ⟨w₂, hruns, h₂⟩ := compileEach hg h₁ rest hrest
      refine ⟨w₂, ?_, h₂⟩
      have hfailing : g.failing ((name, d) :: rest) =
          if (Program.of? g.directory name d.formals d.source).isNone then name :: g.failing rest
          else g.failing rest := by
        rw [Group.failing, List.filter_cons]
        split <;> rfl
      rw [Group.compileEach_cons, hrun, hruns, hfailing]

end Workspace.Agrees

/-! ## Defining -/

namespace Workspace.Agrees

/-- A new slot. -/
theorem push (h : w.Agrees ledger) (reports : Nat) (texts : Array (List String)) (n : Note) :
    Workspace.Agrees { w with slots := w.slots.push ⟨none, reports⟩, reports := texts } (ledger ++ [n]) where
  size := by simp [h.size]
  outcome slot o ho := by
    simp only [outcome?, Array.getElem?_push] at ho
    split at ho
    · cases ho
    · obtain ⟨n, hn, hrest⟩ := h.outcome slot o ho
      exact ⟨n, (List.getElem?_append_left (List.getElem?_eq_some_iff.mp hn).1).trans hn, hrest⟩

/-- Definitions that are renewed are noted as they compile among other templates. Those that keep their
slots compile nowhere. -/
theorem renewEach {d : Directory} (d' : Directory) : {w : Workspace} → {ledger : List Note} →
    w.Agrees ledger → (es : List (String × Definition)) → Recorded ledger d es → ∃ more,
      ((Group.renewEach es).run w).2.Agrees (ledger ++ more) ∧
        Recorded (ledger ++ more) d' ((Group.renewEach es).run w).1
  | w, ledger, h, [], _ => ⟨[], (List.append_nil ledger).symm ▸ h, nofun⟩
  | w, ledger, h, (name, e) :: rest, hr => by
      obtain ⟨he, hrest⟩ := recorded_cons.mp hr
      rw [Group.renewEach_cons, Workspace.renew]
      cases hs : w.isStale e.slot with
      | true =>
        rw [if_pos rfl]
        obtain ⟨more, hw, hn⟩ := renewEach d' (h.push ((w.slots[e.slot]?.map Slot.reports).getD 0) w.reports
          (.of d' (name, e))) rest (Recorded.append hrest _)
        rw [List.append_assoc] at hw hn
        refine ⟨[.of d' (name, e)] ++ more, hw, recorded_cons.mpr ⟨?_, hn⟩⟩
        rw [h.size, List.getElem?_append_right (Nat.le_refl _), Nat.sub_self]
        rfl
      | false =>
        rw [if_neg Bool.false_ne_true]
        obtain ⟨more, hw, hn⟩ := renewEach d' h rest hrest
        refine ⟨more, hw, recorded_cons.mpr ⟨?_, hn⟩⟩
        have ho : w.outcome? e.slot = some (.failed false) := by
          unfold Workspace.isStale at hs
          split at hs
          · assumption
          · cases hs
        obtain ⟨n, hn, -, hlasting⟩ := h.outcome _ _ ho
        cases he.symm.trans hn
        have hnone := hlasting rfl
        rw [List.getElem?_append_left (List.getElem?_eq_some_iff.mp hn).1]
        refine he.trans ?_
        rw [Note.of, Note.of]
        exact congrArg some (congrArg (Note.mk _ _ _) ((hnone _).trans (hnone _).symm))

/-- A definition is noted with the others of its group, as they compile now. -/
theorem define (h : w.Agrees ledger) (name : String) (formals : Formals) (source : String)
    (hg : g.Recorded ledger) {slot : Nat} {es : List (String × Definition)} {w' : Workspace}
    (he : (Group.renewEach g.templates).run w = (es, w')) (hs : slot = w'.slots.size) : ∃ more,
      w'.allocate.2.Agrees (ledger ++ more) ∧
        (g.defining name formals source slot es).Recorded (ledger ++ more) := by
  subst hs
  obtain ⟨more, hw, hn⟩ :=
    h.renewEach (g.defining name formals source w'.slots.size es).directory g.templates hg
  rw [he] at hw hn
  refine ⟨more ++ [.of (g.defining name formals source w'.slots.size es).directory
    (name, ⟨formals, source, w'.slots.size⟩)], ?_, fun e he => ?_⟩
  · rw [← List.append_assoc]
    exact hw.push _ _ _
  · rw [← List.append_assoc]
    rcases Dict.mem_of_mem_insert he with rfl | he
    · rw [hw.size, List.getElem?_append_right (Nat.le_refl _), Nat.sub_self]
      rfl
    · exact Recorded.append hn _ e he

end Workspace.Agrees

/-! ## Importing -/

/-- The slots of the definitions that do not compile in a group until it imports another one. -/
def Group.mendedBy (g other : Group) : List Nat :=
  (g.templates.filter fun e =>
    (Program.of? g.directory e.1 e.2.formals e.2.source).isNone &&
      (Program.of? (g.importing other).directory e.1 e.2.formals e.2.source).isSome).map fun e => e.2.slot

/-- A ledger in which some slots are noted anew, as they compile among other templates. -/
def revised (ledger : List Note) (d : Directory) (slots : List Nat) : List Note :=
  ledger.mapIdx fun slot n => if slot ∈ slots then n.amid d else n

theorem getElem?_revised (ledger : List Note) (d : Directory) (slots : List Nat) (slot : Nat) :
    (revised ledger d slots)[slot]? = ledger[slot]?.map fun n => if slot ∈ slots then n.amid d else n :=
  List.getElem?_mapIdx

/-- Groups that have none of the slots are noted as before. -/
theorem Recorded.revised {d d' : Directory} {es : List (String × Definition)} (h : Recorded ledger d es)
    {slots : List Nat} (hs : ∀ e ∈ es, e.2.slot ∉ slots) : Recorded (revised ledger d' slots) d es := by
  intro e he
  rw [getElem?_revised, h e he, Option.map_some, if_neg (hs e he)]

/-- An importing group is noted anew where the import mends it. -/
theorem Group.Recorded.importing (hg : g.Recorded ledger) (other : Group) :
    (g.importing other).Recorded (revised ledger (g.importing other).directory (g.mendedBy other)) := by
  intro e he
  have he : e ∈ g.templates := he
  rw [getElem?_revised, hg e he, Option.map_some]
  split
  · rfl
  · rename_i hm
    -- what is not mended compiles to what it did
    have hsame : Program.of? (g.importing other).directory e.1 e.2.formals e.2.source =
        Program.of? g.directory e.1 e.2.formals e.2.source :=
      Program.of?_congr (g.importing_grows other) fun hn => by
        by_contra hsome
        refine hm (List.mem_map_of_mem (List.mem_filter.mpr ⟨he, ?_⟩))
        rw [hn, Option.isNone_none, Bool.true_and, Option.isSome_iff_ne_none]
        exact hsome
    rw [Note.of, Note.of, hsame]

/-- Slots that nothing was kept in can be noted anew. -/
theorem Workspace.Agrees.revised (h : w.Agrees ledger) (d : Directory) {slots : List Nat}
    (hs : ∀ slot ∈ slots, w.outcome? slot = none) : w.Agrees (revised ledger d slots) where
  size := h.size.trans List.length_mapIdx.symm
  outcome slot o ho := by
    obtain ⟨n, hn, hrest⟩ := h.outcome slot o ho
    refine ⟨n, ?_, hrest⟩
    rw [getElem?_revised, hn, Option.map_some, if_neg]
    intro hm
    cases (hs slot hm).symm.trans ho

end Stencil
