import Stencil.Proofs.Announcing
import Stencil.Proofs.Homes
/-! What lasts of compiling when further templates arrive. Programs stay what they are, and what is kept as
failed for good could not start to compile. -/

namespace Stencil

/-! ## Programs -/

/-- Compiled code does not depend on what a template may call. And as long as all that it may call is still
there, with the same parameters, it compiles. So what a group compiled still compiles to that once the group
imports another one. -/
theorem compile_stable (d d' : Directory) (name : String) (formals : Formals) (source : String) :
    (∀ p p', Program.compile d name formals source = .ok p → Program.compile d' name formals source = .ok p' →
      p = p') ∧
    ((∀ callee f, d.formals? callee = some f → d'.formals? callee = some f) →
      (∀ callee f, d.inheritedFormals? callee = some f → d'.inheritedFormals? callee = some f) →
      ∀ p, Program.compile d name formals source = .ok p → Program.compile d' name formals source = .ok p) ∧
    ∀ (g other : Group) p, Program.compile g.directory name formals source = .ok p →
      Program.compile (g.importing other).directory name formals source = .ok p := by
  refine ⟨fun p p' h h' => ?_, fun hd hs p h => ?_, fun g other p h => ?_⟩
  · exact Program.of?_unique (Program.of?_eq_some.mpr h) (Program.of?_eq_some.mpr h')
  · have grows : d.Grows d' := by
      intro callee f hf
      unfold Directory.find? at *
      split
      · rw [if_pos ‹_›] at hf
        exact hs _ _ hf
      · rw [if_neg ‹_›] at hf
        exact hd _ _ hf
    exact Program.of?_eq_some.mp (Program.of?_grows grows (Program.of?_eq_some.mpr h))
  · exact Program.of?_eq_some.mp
      (Program.of?_grows (g.importing_grows other) (Program.of?_eq_some.mpr h))

theorem compile_stable_page :
    let few : Directory := ⟨fun name => if name = "row" then some (.ofNames ["cell"]) else none, fun _ => none, []⟩
    let many : Directory :=
      ⟨fun name => if name = "row" then some (.ofNames ["cell"]) else some .any, fun _ => some .any, []⟩
    ∃ p, Program.compile few "page" (.ofNames ["cells"]) "<cells:row(); separator=\x22, \x22>" = .ok p ∧
      Program.compile many "page" (.ofNames ["cells"]) "<cells:row(); separator=\x22, \x22>" = .ok p ∧
      ∀ p', Program.compile many "page" (.ofNames ["cells"]) "<cells:row(); separator=\x22, \x22>" = .ok p' →
        p = p' := by
  intro few many
  have hok : (Program.compile few "page" (.ofNames ["cells"]) "<cells:row(); separator=\x22, \x22>").isOk = true := by
    decide +kernel
  obtain ⟨p, hp, -⟩ := Program.of_isOk hok
  have hstable := compile_stable few many "page" (.ofNames ["cells"]) "<cells:row(); separator=\x22, \x22>"
  refine ⟨p, hp, hstable.2.1 (fun callee f hf => ?_) nofun p hp, fun p' hp' => hstable.1 p p' hp hp'⟩
  change (if callee = "row" then _ else _) = some f at hf ⊢
  split at hf
  · rw [if_pos ‹_›]
    exact hf
  · cases hf

/-! ## Failures -/

theorem Program.of?_eq_none {d : Directory} {name source : String} {formals : Formals} :
    of? d name formals source = none ↔ ∃ e, compile d name formals source = .error e := by
  unfold of?
  cases compile d name formals source with
  | ok p => exact ⟨nofun, nofun⟩
  | error e => exact ⟨fun _ => ⟨e, rfl⟩, fun _ => rfl⟩

/-- What is kept as failed for good is noted and compiles among no templates. -/
def Workspace.Lasting (w : Workspace) (notes : List Making) : Prop :=
  ∀ slot, w.outcome? slot = some (.failed false) →
    ∃ name formals source, notes[slot]? = some (name, formals, source) ∧
      ∀ d, Program.of? d name formals source = none

namespace Workspace

variable {w : Workspace} {notes : List Making} {slot : Nat}

theorem isStale_eq_false : w.isStale slot = false ↔ w.outcome? slot = some (.failed false) := by
  unfold isStale
  split
  · exact ⟨fun _ => ‹_›, fun _ => rfl⟩
  · rename_i h
    exact ⟨nofun, fun ho => absurd ho h⟩

namespace Lasting

theorem of_slots {w' : Workspace} (h : w.Lasting notes) (hs : w'.slots = w.slots) : w'.Lasting notes := by
  intro slot ho
  rw [outcome?, hs] at ho
  exact h slot ho

/-- Where nothing new is kept, notes may be added. -/
theorem append {w' : Workspace} (h : w.Lasting notes) (more : List Making)
    (ho : ∀ slot o, w'.outcome? slot = some o → w.outcome? slot = some o) : w'.Lasting (notes ++ more) := by
  intro slot hs
  obtain ⟨name, formals, source, hn, hd⟩ := h slot (ho slot _ hs)
  exact ⟨name, formals, source, (List.getElem?_append_left (List.getElem?_eq_some_iff.mp hn).1).trans hn, hd⟩

/-- Compiling a definition keeps it as failed for good only if nothing lets it compile. -/
theorem compiled (h : w.Lasting notes) (g : Group) {name : String} {d : Definition}
    (hn : notes[d.slot]? = some (name, d.formals, d.source)) : ((g.compiled name d).run w).2.Lasting notes := by
  cases ho : w.outcome? d.slot with
  | some o =>
    rw [Group.compiled_kept g name ho]
    exact h
  | none =>
    obtain ⟨outcome, v, hrun, hv, -, hlasting⟩ := Group.compiled_fresh g name ho
    rw [hrun]
    intro slot hs
    rw [outcome?_settle] at hs
    split at hs
    · rename_i heq
      exact ⟨_, _, _, heq.1 ▸ hn, hlasting (Option.some.inj hs)⟩
    · rw [outcome?, hv] at hs
      exact h slot hs

theorem compileEach (g : Group) : {w : Workspace} → w.Lasting notes → (es : List (String × Definition)) →
    Group.Noted notes es → ((g.compileEach es).run w).2.Lasting notes
  | _, h, [], _ => h
  | _, h, (_, _) :: rest, hn => by
      obtain ⟨hd, hrest⟩ := List.forall_mem_cons.mp hn
      rw [Group.compileEach_cons]
      exact compileEach g (h.compiled g hd) rest hrest

/-- So does looking up a name, which leads to one of the groups. -/
theorem closest (h : w.Lasting notes) (name : String) {groups : List Group}
    (hg : ∀ g ∈ groups, Group.Noted notes g.templates) :
    ∃ r w', (Group.resolveFound name (Group.closest? name groups)).run w = (r, w') ∧ w'.Lasting notes ∧
      ∀ native p, r = .ok (native, p) → native ∈ groups := by
  cases hf : Group.closest? name groups with
  | none => exact ⟨_, _, rfl, h, nofun⟩
  | some f =>
    obtain ⟨native, d⟩ := f
    obtain ⟨hm, hd⟩ := Group.mem_of_closest? hf
    have hw := h.compiled native (hg native hm _ (Dict.mem_of_find? hd))
    cases hc : (native.compiled name d).run w with
    | mk o v =>
      rw [hc] at hw
      refine ⟨_, _, Group.resolveFound_run hc, hw, fun native' p he => ?_⟩
      cases o with
      | none => cases he
      | some q =>
        cases he
        exact hm

end Lasting

end Workspace

/-! ## Hosts -/

/-- All definitions of a group and of what it imports are noted. -/
def Group.NotedAll (notes : List Making) (g : Group) : Prop := ∀ x ∈ g.tree, Group.Noted notes x.templates

section

variable {notes : List Making} {settings : Settings}

theorem Group.NotedAll.of_mem {g x : Group} (h : g.NotedAll notes) (hx : x ∈ g.tree) : x.NotedAll notes :=
  Group.noted_tree h x hx

theorem lasting_resolves (hroot : settings.group.NotedAll notes) (name : String) {groups : List Group}
    (hgroups : ∀ x ∈ groups, x.NotedAll notes) :
    (Facts.holding (Instance.Reaches (Group.Noted notes ·.templates)) (·.Lasting notes)).Resolves settings
      (Group.resolveFound name (Group.closest? name groups)) := by
  rintro _ _ w hw
  obtain ⟨r, w', hr, hw', hmem⟩ :=
    Workspace.Lasting.closest hw name fun g hg => hgroups g hg g g.mem_tree
  rw [hr]
  exact ⟨hw', fun native p he => List.forall_mem_append.mpr ⟨hroot, hgroups native (hmem native p he)⟩⟩

theorem lasting_upheld (hroot : settings.group.NotedAll notes) :
    Facts.Upheld (Instance.Reaches (Group.Noted notes ·.templates)) (·.Lasting notes) settings where
  deliver _ _ _ hw := Workspace.Lasting.of_slots hw rfl
  resolve name := by
    rw [Group.resolve, Group.find?_eq_closest?]
    exact lasting_resolves hroot name fun _ => hroot.of_mem
  resolveInherited i hi name := by
    rw [Group.resolveInherited, Group.findInherited?, Group.findIn?_eq_closest?]
    exact lasting_resolves hroot name (Group.noted_imports (List.forall_mem_append.mp hi).2)
  enclosed _ hi _ _ _ _ := List.forall_mem_append.mpr ⟨hroot, (List.forall_mem_append.mp hi).2⟩

end

namespace Host

variable {h : Host} {notes : List Making}

/-- Asking keeps something as failed for good only if nothing lets it compile. -/
theorem observe_lasting (hh : h.Housed notes) (hw : h.workspace.Lasting notes) (o : Observation) :
    (h.observe o).2.workspace.Lasting notes := by
  have hinstances (id : String) (i : Instance) (hi : h.instance? id = some i) :
      i.All (Instance.Reaches (Group.Noted notes ·.templates)) := (hh.instances id i hi).mono fun _ hj => hj.2
  have hl : Observation.Leaves (·.Lasting notes) (Instance.Reaches (Group.Noted notes ·.templates)) h.workspace
      (o.ask h.group? h.instance?) := by
    refine o.ask_leaves hw hinstances (fun id g name hg => ?_) (fun id g hg => ?_) (fun id _ source g _ hg => ?_)
      fun i hi interpreter room => ?_
    · have hnoted : g.NotedAll notes := hh.groups id g hg
      obtain ⟨r, w', hr, hw', hmem⟩ := hw.closest name hnoted
      rw [← Group.find?_eq_closest?] at hr
      rw [Group.lookup_run hr]
      refine ⟨hw', fun native p he => ?_⟩
      cases r with
      | error e => cases he
      | ok found =>
        cases he
        exact List.forall_mem_append.mpr ⟨hnoted, hnoted.of_mem (hmem _ _ rfl)⟩
    · have hall := hw.compileEach g g.templates (hh.groups id g hg g g.mem_tree)
      rw [Group.compileAll, StateT.run_bind]
      generalize (g.compileEach g.templates).run h.workspace = c at hall ⊢
      obtain ⟨failed, v⟩ := c
      cases failed <;> exact hall
    · obtain ⟨r, delivered, hr⟩ := g.compileSource_run source h.workspace
      rw [hr]
      have hnoted := hh.groups id g hg
      exact ⟨hw.of_slots rfl, fun p _ => List.forall_mem_append.mpr ⟨hnoted, hnoted⟩⟩
    · exact Facts.Upheld.renderTo interpreter room hi (lasting_upheld (List.forall_mem_append.mp hi.bare).1) hw
  exact (Host.observe_leaves hl hinstances).1

end Host

/-! ## Defining -/

namespace Group

/-- Definitions that are renewed are not compiled on that occasion. -/
theorem renewEach_outcome? (slot : Nat) : (w : Workspace) → (es : List (String × Definition)) →
    ((renewEach es).run w).2.outcome? slot = w.outcome? slot
  | _, [] => rfl
  | w, (_, d) :: rest => by
      rw [renewEach_cons]
      refine (renewEach_outcome? slot _ rest).trans ?_
      rw [Workspace.renew]
      split
      · exact Workspace.Accounts.outcome?_push w _ w.reports slot
      · rfl

theorem renewEach_size : (w : Workspace) → (es : List (String × Definition)) →
    w.slots.size ≤ ((renewEach es).run w).2.slots.size
  | _, [] => Nat.le_refl _
  | w, (_, d) :: rest => by
      rw [renewEach_cons]
      refine Nat.le_trans ?_ (renewEach_size _ rest)
      rw [Workspace.renew]
      split
      · simp
      · exact Nat.le_refl _

/-- A definition that is renewed has a new slot, unless it failed for good. -/
theorem slot_of_renewEach : (w : Workspace) → (es : List (String × Definition)) →
    ∀ e ∈ ((renewEach es).run w).1, e.2.slot < w.slots.size → w.isStale e.2.slot = false
  | _, [] => nofun
  | w, (name, d) :: rest => by
      have hrest (w' : Workspace) (hw : w.slots.size ≤ w'.slots.size)
          (ho : ∀ slot, w'.outcome? slot = w.outcome? slot) :
          ∀ e ∈ ((renewEach rest).run w').1, e.2.slot < w.slots.size → w.isStale e.2.slot = false := by
        intro e he hlt
        have hstale := slot_of_renewEach w' rest e he (Nat.lt_of_lt_of_le hlt hw)
        rw [Workspace.isStale_eq_false] at hstale ⊢
        exact (ho _).symm.trans hstale
      rw [renewEach_cons, Workspace.renew]
      split
      · refine List.forall_mem_cons.mpr ⟨fun hlt => absurd hlt (Nat.lt_irrefl _), hrest _ ?_ fun slot => ?_⟩
        · simp
        · exact Workspace.Accounts.outcome?_push w _ w.reports slot
      · exact List.forall_mem_cons.mpr ⟨fun _ => Bool.eq_false_iff.mpr ‹_›, hrest w (Nat.le_refl _) fun _ => rfl⟩

/-- A definition that keeps its slot when another one arrives failed for good. -/
theorem define_keeps {w w' : Workspace} {g g' : Group} {name source : String} {formals : Formals}
    (h : (g.define name formals source).run w = (.ok g', w')) {e : String × Definition} (he : e ∈ g'.templates)
    (hlt : e.2.slot < w.slots.size) : w.outcome? e.2.slot = some (.failed false) := by
  rw [define_run] at h
  split at h
  · cases h
  · cases h
    rcases Dict.mem_of_mem_insert he with rfl | he
    · exact absurd hlt (Nat.not_lt.mpr (renewEach_size w g.templates))
    · exact Workspace.isStale_eq_false.mp (slot_of_renewEach w g.templates e he hlt)

end Group

namespace Host

variable {h : Host} {notes : List Making}

/-- Building compiles nothing. -/
theorem build_outcome? (h : Host) (b : Building) (slot : Nat) :
    (h.build b).2.workspace.outcome? slot = h.workspace.outcome? slot := by
  cases b with
  | create | clone | listening | registering => rfl
  | importing group other =>
    rw [build, Building.make]
    cases h.group? other <;> rfl
  | define group name formals source =>
    rw [build, Building.make]
    cases h.group? group with
    | none => rfl
    | some g =>
      change ((g.define name formals source).run h.workspace).2.outcome? slot = _
      rw [Group.define_run]
      split
      · rfl
      · exact (Workspace.Accounts.outcome?_push _ _ _ slot).trans (Group.renewEach_outcome? slot _ _)

/-- After each history, what is kept as failed for good compiles among no templates. -/
theorem lasting (as : List Action) :
    ∃ notes, (empty.after as).Housed notes ∧ (empty.after as).workspace.Lasting notes := by
  have hafter {h : Host} {notes : List Making} (hh : h.Housed notes) (hw : h.workspace.Lasting notes) :
      ∃ notes', (h.after as).Housed notes' ∧ (h.after as).workspace.Lasting notes' := by
    induction as generalizing h notes with
    | nil => exact ⟨notes, hh, hw⟩
    | cons a as ih =>
      cases a with
      | build b =>
        obtain ⟨more, hb⟩ := hh.build b
        exact ih hb (hw.append more fun slot o ho => (h.build_outcome? b slot).symm.trans ho)
      | observe o => exact ih (hh.observe o) (observe_lasting hh hw o)
  exact hafter Housed.empty nofun

end Host

/-- The problems that a further definition may mend. -/
def Kind.mendable : List Kind :=
  [.noSuchTemplate, .noSuchFormalArgument, .argumentCountMismatch, .mapTemplateWithoutParameters]

theorem CompileError.isMendable_eq_false (e : CompileError) :
    e.isMendable = false ↔ ∀ x ∈ e.diagnostics, x.kind ∉ Kind.mendable := by
  rw [isMendable_eq, List.any_eq_false]
  refine forall₂_congr fun x _ => ?_
  cases x.kind <;> simp [Kind.isMendable, Kind.mendable]

/-- Whether a definition is to be tried again is decided by what is found when it is compiled. -/
theorem Group.isStale_compiled (g : Group) {name : String} {d : Definition} {w : Workspace}
    (ho : w.outcome? d.slot = none) (hlt : d.slot < w.slots.size) :
    ((g.compiled name d).run w).2.isStale d.slot = false ↔
      ∃ e, Program.compile g.directory name d.formals d.source = .error e ∧
        ∀ x ∈ e.diagnostics, x.kind ∉ Kind.mendable := by
  rw [Workspace.isStale_eq_false, Group.compiled_open g (e := (name, d)) ho]
  cases Program.compile g.directory name d.formals d.source with
  | ok p =>
    rw [Workspace.outcome?_settle, if_pos ⟨rfl, hlt⟩]
    exact ⟨nofun, nofun⟩
  | error e =>
    rw [Workspace.outcome?_settle, if_pos ⟨rfl, (w.slots_reports _ _ e.diagnostics).symm ▸ hlt⟩]
    constructor
    · intro h
      exact ⟨e, rfl, e.isMendable_eq_false.mp (Outcome.failed.inj (Option.some.inj h))⟩
    · rintro ⟨e', he, hk⟩
      cases he
      rw [e.isMendable_eq_false.mpr hk]

/-- What fails without a problem that may be mended fails whatever a template may call. Compiling keeps these
failures, and no others, for good. So a template that is not compiled anew when another one is defined, after
whichever history, could not have started to compile. -/
theorem failures_last :
    (∀ (d d' : Directory) (name : String) (formals : Formals) (source : String) (e : CompileError),
      Program.compile d name formals source = .error e → (∀ x ∈ e.diagnostics, x.kind ∉ Kind.mendable) →
      ∃ e', Program.compile d' name formals source = .error e') ∧
    (∀ (g : Group) (name : String) (d : Definition) (w : Workspace),
      w.outcome? d.slot = none → d.slot < w.slots.size →
      (((g.compiled name d).run w).2.isStale d.slot = false ↔
        ∃ e, Program.compile g.directory name d.formals d.source = .error e ∧
          ∀ x ∈ e.diagnostics, x.kind ∉ Kind.mendable)) ∧
    ∀ (as : List Action) (id : String) (g g' : Group) (w' : Workspace) (name : String) (formals : Formals)
      (source : String), (Host.empty.after as).group? id = some g →
      (g.define name formals source).run (Host.empty.after as).workspace = (.ok g', w') →
      ∀ e ∈ g.templates, e ∈ g'.templates → ∀ d, ∃ e', Program.compile d e.1 e.2.formals e.2.source = .error e' := by
  refine ⟨fun d d' name formals source e he hk => ?_, fun g name d w ho hlt => g.isStale_compiled ho hlt,
    fun as id g g' w' name formals source hg hd e he he' d => ?_⟩
  · exact Program.of?_eq_none.mp (Program.of?_lasting he (e.isMendable_eq_false.mpr hk) d')
  · obtain ⟨notes, hh, hw⟩ := Host.lasting as
    have hnote := hh.groups id g hg g g.mem_tree e he
    have hlt : e.2.slot < (Host.empty.after as).workspace.slots.size :=
      hh.filed.size ▸ (List.getElem?_eq_some_iff.mp hnote).1
    obtain ⟨_, _, _, hn, hnone⟩ := hw _ (Group.define_keeps hd he' hlt)
    cases hnote.symm.trans hn
    exact Program.of?_eq_none.mp (hnone d)

theorem failures_last_page :
    let d₀ : Directory := ⟨fun _ => none, fun _ => none, []⟩
    let as : List Action := [.build (.create "site" "site"),
      .build (.define "site" "page" (.ofNames []) "<title>"), .observe (.lookup "site" "page")]
    (∃ e, Program.compile d₀ "page" (.ofNames []) "<title>" = .error e ∧
      (∀ x ∈ e.diagnostics, x.kind ∉ Kind.mendable) ∧
      ∀ d, ∃ e', Program.compile d "page" (.ofNames []) "<title>" = .error e') ∧
    ∃ g g' w', (Host.empty.after as).group? "site" = some g ∧
      (g.define "title" .any "Pages").run (Host.empty.after as).workspace = (.ok g', w') ∧
      ∃ e ∈ g.templates, e ∈ g'.templates ∧
        ∀ d, ∃ e', Program.compile d e.1 e.2.formals e.2.source = .error e' := by
  intro d₀ as
  refine ⟨?_, ?_⟩
  · have hkinds : (Compilation.found ⟨"page", .ofNames [], "<title>", d₀⟩).map Diagnostic.kind =
        [.noSuchAttribute] := by
      decide +kernel
    unfold Compilation.found at hkinds
    split at hkinds
    · cases hkinds
    · rename_i e he
      have hk : ∀ x ∈ e.diagnostics, x.kind ∉ Kind.mendable := fun x hx => by
        have hx := List.mem_map_of_mem (f := Diagnostic.kind) hx
        rw [hkinds, List.mem_singleton] at hx
        rw [hx]
        decide
      exact ⟨e, he, hk, fun d => failures_last.1 d₀ d "page" (.ofNames []) "<title>" e he hk⟩
  · have hkept : ((Host.empty.after as).group? "site").any (fun g =>
        (((g.define "title" .any "Pages").run (Host.empty.after as).workspace).1.toOption.any fun g' =>
          g.templates.any g'.templates.contains)) = true := by decide +kernel
    simp only [Option.any_eq_true, List.any_eq_true, List.contains_iff_mem] at hkept
    obtain ⟨g, hg, g', hd, e, he, he'⟩ := hkept
    cases hr : (g.define "title" .any "Pages").run (Host.empty.after as).workspace with
    | mk r w' =>
      rw [hr] at hd
      cases r with
      | error => cases hd
      | ok =>
        cases hd
        exact ⟨g, g', w', hg, hr, e, he, he', failures_last.2.2 as "site" g g' w' "title" .any "Pages" hg hr e he he'⟩

end Stencil
