import Stencil.Proofs.Filing
import Stencil.Proofs.Holding
/-! Names lead home. However an instance got where it runs, what it calls is looked up from the group of
the outermost template, and what it inherits from the group that its own template belongs to. -/

namespace Stencil

open Rendering

/-! ## Homes -/

theorem Code.Inside.trans {c d e : Code} (h : c.Inside d) (h' : d.Inside e) : c.Inside e := by
  induction h' with
  | here => exact h
  | deeper hm _ ih => exact .deeper hm ih

theorem Program.inside_of_subprogram? {p q : Program} {index : Nat} (h : p.subprogram? index = some q) :
    q.toCode.Inside p.toCode := by
  unfold subprogram? at h
  split at h
  · rename_i code hc
    cases h
    exact .deeper (List.mem_of_getElem? hc) (.here _)
  · cases h

/-- A program belongs to a group: a definition of the group itself makes it, or it was compiled from source
on the spot in the group. -/
def Group.Owns (g : Group) (p : Program) : Prop :=
  (∃ name d, Dict.find? g.templates name = some d ∧ d.Makes name p) ∨
    ∃ source, Program.compile g.directory Group.anonymousName .any source = .ok p

/-- The template of an instance belongs to its native group, or is written inside one that does, in its
text or in a default. -/
def Instance.AtHome (i : Instance) : Prop := ∃ p, i.native.Owns p ∧ i.program.toCode.Inside p.toCode

/-- An instance is at home, and all groups that it may look up names in are noted. -/
def Instance.Housed (notes : List Making) (i : Instance) : Prop :=
  i.AtHome ∧ ∀ g ∈ i.group.tree ++ i.native.tree, Group.Noted notes g.templates

/-- The groups in which a callee is looked up, the closest first. -/
def Group.reach (root native : Group) (callee : Callee) : List Group :=
  if callee.inherited then treeIn native.imports else root.tree

variable {notes : List Making}

theorem Instance.Housed.append {i : Instance} (h : i.Housed notes) (more : List Making) :
    i.Housed (notes ++ more) := ⟨h.1, fun g hg => (h.2 g hg).append more⟩

/-- Instances of what a name means are housed. -/
theorem Instance.Housed.of_means {root g : Group} {p : Program} {name : String} {groups : List Group}
    (hroot : ∀ x ∈ root.tree, Group.Noted notes x.templates)
    (hgroups : ∀ x ∈ groups, ∀ y ∈ x.tree, Group.Noted notes y.templates)
    (h : Group.Means name (Group.closest? name groups) (.ok (g, p))) :
    (Instance.ofProgram root g p none).Housed notes := by
  obtain ⟨d, hf, hmade⟩ := h
  obtain ⟨hg, hd⟩ := Group.mem_of_closest? hf
  exact ⟨⟨p, .inl ⟨name, d, hd, hmade⟩, .here _⟩, List.forall_mem_append.mpr ⟨hroot, hgroups g hg⟩⟩

theorem Group.noted_tree {root : Group} (h : ∀ x ∈ root.tree, Group.Noted notes x.templates) :
    ∀ x ∈ root.tree, ∀ y ∈ x.tree, Group.Noted notes y.templates :=
  fun _ hx y hy => h y (Group.tree_subset root hx hy)

theorem Group.noted_imports {native : Group} (h : ∀ x ∈ native.tree, Group.Noted notes x.templates) :
    ∀ x ∈ Group.treeIn native.imports, ∀ y ∈ x.tree, Group.Noted notes y.templates :=
  fun _ hx y hy => h y (native.tree_eq ▸ List.mem_cons_of_mem _ (Group.treeIn_subset _ hx hy))

/-! ## Renders -/

/-- In a render all instances are housed, and so are those in defaults. -/
def housing (notes : List Making) : Facts := .holding (Instance.Housed notes) (·.Filed notes)

theorem housing_resolves {settings : Settings} (hroot : ∀ x ∈ settings.group.tree, Group.Noted notes x.templates)
    (name : String) {groups : List Group} (hgroups : ∀ x ∈ groups, ∀ y ∈ x.tree, Group.Noted notes y.templates) :
    (housing notes).Resolves settings (Group.resolveFound name (Group.closest? name groups)) := by
  intro _ _ w hw
  obtain ⟨r, w', hr, hw', hmeans⟩ :=
    Workspace.Filed.closest hw name fun g hg => hgroups g hg g g.mem_tree
  rw [hr]
  refine ⟨hw', fun native program he => ?_⟩
  cases he
  exact .of_means hroot hgroups hmeans

theorem housing_upheld {settings : Settings} (hroot : ∀ x ∈ settings.group.tree, Group.Noted notes x.templates) :
    Facts.Upheld (Instance.Housed notes) (·.Filed notes) settings where
  deliver _ _ _ hw := Workspace.Filed.of_slots hw rfl
  resolve name := by
    rw [Group.resolve, Group.find?_eq_closest?]
    exact housing_resolves hroot name (Group.noted_tree hroot)
  resolveInherited i hi name := by
    rw [Group.resolveInherited, Group.findInherited?, Group.findIn?_eq_closest?]
    exact housing_resolves hroot name (Group.noted_imports (List.forall_mem_append.mp hi.2).2)
  enclosed i hi index program scope hp := by
    obtain ⟨⟨p, hp', hinside⟩, hgroups⟩ := hi
    exact ⟨⟨p, hp', (Program.inside_of_subprogram? hp).trans hinside⟩,
      List.forall_mem_append.mpr ⟨hroot, (List.forall_mem_append.mp hgroups).2⟩⟩

theorem Instance.All.noted_group {bound : Instance} (hb : bound.All (Instance.Housed notes)) :
    ∀ x ∈ bound.group.tree, Group.Noted notes x.templates :=
  (List.forall_mem_append.mp hb.bare.2).1

/-- Rendering keeps what is filed. -/
theorem Workspace.Filed.renderTo {w : Workspace} (hw : w.Filed notes) {bound : Instance}
    (hb : bound.All (Instance.Housed notes)) (i : Interpreter) (room : Option Nat) :
    ((i.renderTo room bound).run w).2.Filed notes :=
  Facts.Upheld.renderTo i room hb (housing_upheld hb.noted_group) hw

/-! ## Hosts -/

/-- All that a host holds is noted and housed, and its workspace is filed. -/
structure Host.Housed (h : Host) (notes : List Making) : Prop where
  filed : h.workspace.Filed notes
  groups : ∀ id g, h.group? id = some g → ∀ x ∈ g.tree, Group.Noted notes x.templates
  instances : ∀ id i, h.instance? id = some i → i.All (Instance.Housed notes)

namespace Host.Housed

variable {h : Host}

theorem observe (hh : h.Housed notes) (o : Observation) : (h.observe o).2.Housed notes := by
  have hl : Observation.Leaves (·.Filed notes) (Instance.Housed notes) h.workspace
      (o.ask h.group? h.instance?) := by
    refine o.ask_leaves hh.filed hh.instances (fun id g name hg => ?_) (fun id g hg => ?_)
      (fun id _ source g _ hg => ?_) fun i hi interpreter room => hh.filed.renderTo hi interpreter room
    · have hnoted := hh.groups id g hg
      obtain ⟨r, w', hr, hw', hmeans⟩ := hh.filed.closest name hnoted
      rw [← Group.find?_eq_closest?] at hr
      rw [Group.lookup_run hr]
      refine ⟨hw', fun native program he => ?_⟩
      cases r with
      | error e => cases he
      | ok found =>
        cases he
        exact .of_means hnoted (Group.noted_tree hnoted) hmeans
    · have hall := hh.filed.compileEach g g.templates (hh.groups id g hg g g.mem_tree)
      rw [Group.compileAll, StateT.run_bind]
      generalize (g.compileEach g.templates).run h.workspace = c at hall ⊢
      obtain ⟨failed, v⟩ := c
      cases failed <;> exact hall
    · have hnoted := hh.groups id g hg
      unfold Group.compileSource
      cases hc : Program.compile g.directory Group.anonymousName .any source with
      | ok p =>
        refine ⟨hh.filed, fun program he => ?_⟩
        cases he
        exact ⟨⟨p, .inr ⟨source, hc⟩, .here _⟩, List.forall_mem_append.mpr ⟨hnoted, hnoted⟩⟩
      | error e => exact ⟨hh.filed.of_slots (h.workspace.slots_delivers _ _), nofun⟩
  obtain ⟨hw, hi⟩ := Host.observe_leaves hl hh.instances
  exact ⟨hw, hh.groups, hi⟩

/-- Notes of what a building leaves: they go on, and the group that is made is noted. -/
theorem update (hh : h.Housed notes) (more : List Making) {w : Workspace} (hw : w.Filed (notes ++ more))
    (id : String) {made : Option Group}
    (hm : ∀ g, made = some g → ∀ x ∈ g.tree, Group.Noted (notes ++ more) x.templates) :
    Host.Housed ⟨Handles.update id made h.groups, h.instances, w⟩ (notes ++ more) where
  filed := hw
  groups other g hg := by
    rcases Handles.of_lookup_update hg with ⟨hmade, -⟩ | ⟨hg, -⟩
    · exact hm g hmade
    · exact fun x hx => (hh.groups other g hg x hx).append more
  instances other i hi := (hh.instances other i hi).mono fun _ hj => hj.append more

theorem noted_iff {g : Group} : (∀ x ∈ g.tree, Group.Noted notes x.templates) ↔
    Group.Noted notes g.templates ∧ ∀ x ∈ Group.treeIn g.imports, Group.Noted notes x.templates := by
  rw [g.tree_eq, List.forall_mem_cons]

/-- Where only the name, the listener or a renderer of a group changes, it is noted as before. -/
theorem change (hh : h.Housed notes) (group : String) {f : Group → Group}
    (ht : ∀ g, (f g).templates = g.templates) (hi : ∀ g, (f g).imports = g.imports) :
    ∀ g, (Building.change f (h.group? group)).toOption = some g →
      ∀ x ∈ g.tree, Group.Noted notes x.templates := by
  cases hg : h.group? group with
  | none => exact nofun
  | some g =>
    intro g' he
    cases he
    obtain ⟨hown, himports⟩ := noted_iff.mp (hh.groups group g hg)
    exact noted_iff.mpr ⟨ht g ▸ hown, hi g ▸ himports⟩

theorem build (hh : h.Housed notes) (b : Building) : ∃ more, (h.build b).2.Housed (notes ++ more) := by
  have hkeep {made : Option Group}
      (hm : ∀ g, made = some g → ∀ x ∈ g.tree, Group.Noted notes x.templates) : ∃ more,
      Host.Housed ⟨Handles.update b.target made h.groups, h.instances, h.workspace⟩ (notes ++ more) := by
    refine ⟨[], hh.update [] ?_ _ ?_⟩ <;> rw [List.append_nil]
    · exact hh.filed
    · exact hm
  -- only definitions take new slots, which need notes
  cases b with
  | create id name =>
    refine hkeep fun g he => ?_
    cases he
    exact noted_iff.mpr ⟨nofun, nofun⟩
  | clone group id => exact hkeep (hh.change group (fun _ => rfl) fun _ => rfl)
  | listening group listener => exact hkeep (hh.change group (fun _ => rfl) fun _ => rfl)
  | registering group kind renderer => exact hkeep (hh.change group (fun _ => rfl) fun _ => rfl)
  | importing group other =>
    rw [Host.build, Building.make]
    cases hk : h.group? other with
    | none => exact hkeep fun _ he => by cases he
    | some k =>
      cases hg : h.group? group with
      | none => exact hkeep fun _ he => by cases he
      | some g =>
        refine hkeep fun g' he => ?_
        cases he
        obtain ⟨hown, himports⟩ := noted_iff.mp (hh.groups group g hg)
        refine noted_iff.mpr ⟨hown, ?_⟩
        rw [show (g.importing k).imports = g.imports ++ [k] from rfl, Group.treeIn_append, Group.treeIn,
          Group.treeIn, List.append_nil]
        exact List.forall_mem_append.mpr ⟨himports, hh.groups other k hk⟩
  | define group name formals source =>
    rw [Host.build, Building.make]
    cases hg : h.group? group with
    | none => exact hkeep fun _ he => by cases he
    | some g =>
      obtain ⟨hown, himports⟩ := noted_iff.mp (hh.groups group g hg)
      obtain ⟨more, hw, hmade⟩ := hh.filed.define hown name formals source
      refine ⟨more, hh.update more hw _ fun g' he => ?_⟩
      have hok : ((g.define name formals source).run h.workspace).1 = .ok g' := by
        change (((g.define name formals source).run h.workspace).1.mapError Answer.refused).toOption = some g' at he
        generalize ((g.define name formals source).run h.workspace).1 = r at he
        cases r with
        | error e => cases he
        | ok g => exact congrArg _ (Option.some.inj he)
      obtain ⟨hnoted, himported⟩ := hmade g' hok
      exact noted_iff.mpr ⟨hnoted, himported ▸ fun x hx => (himports x hx).append more⟩

/-- Hosts keep all that they hold housed. -/
theorem after (hh : h.Housed notes) (as : List Action) : ∃ notes', (h.after as).Housed notes' := by
  induction as generalizing h notes with
  | nil => exact ⟨notes, hh⟩
  | cons a as ih =>
    cases a with
    | build b =>
      obtain ⟨more, hb⟩ := hh.build b
      exact ih hb
    | observe o => exact ih (hh.observe o)

theorem empty : Host.empty.Housed [] := ⟨⟨rfl, nofun⟩, nofun, nofun⟩

end Host.Housed

/-! ## Calls -/

section

variable {settings : Settings} {env : Env}

theorem Rendering.report_filed (kind : Kind) (arguments : List String) :
    Within .none (fun m => m.workspace.Filed notes) anything (report settings env kind arguments) :=
  .modify fun _ hm => hm.of_slots rfl

/-- Binding arguments changes nothing but attributes. -/
theorem Rendering.bindArguments_bare (template : String) (bound : Instance) (passed : Passed) :
    Attempt.Within .none (fun m => m.workspace.Filed notes) (fun i => i.bare = bound.bare)
      (bindArguments settings env template bound passed) := by
  cases passed with
  | positional values =>
    have hfold (ps : List (Parameter × Value)) (i : Instance) :
        (ps.foldl (fun i p => i.bind p.1.name p.2) i).bare = i.bare := by
      induction ps generalizing i with
      | nil => rfl
      | cons p ps ih => exact ih (i.bind p.1.name p.2)
    unfold bindArguments
    dsimp only
    split
    · exact .bind (.lift (report_filed _ _)) fun _ _ => .abandoned
    · exact .pure (hfold _ bound)
  | named values =>
    refine .lift ?_
    induction values generalizing bound with
    | nil => exact .pure rfl
    | cons e values ih =>
      rw [bindNamed]
      split
      · exact ih (bound.bind e.1 e.2)
      · exact .bind (report_filed _ _) fun _ _ => ih bound

/-- The instance that a call makes is one of what its name means. -/
structure Instance.Means (root : Group) (name : String) (groups : List Group) (i : Instance) : Prop where
  group : i.group = root
  native : Group.Means name (Group.closest? name groups) (.ok (i.native, i.program))
  enclosing : i.enclosing = none

theorem Rendering.resolve_closest (callee : Callee) :
    resolve settings env callee = inWorkspace (Group.resolveFound callee.name
      (Group.closest? callee.name (settings.group.reach env.here.bound.native callee))) := by
  unfold resolve Group.reach
  split
  · rw [← Group.findIn?_eq_closest?]
    rfl
  · rw [← Group.find?_eq_closest?]
    rfl

variable {callee : Callee}
  (hg : ∀ g ∈ settings.group.reach env.here.bound.native callee, Group.Noted notes g.templates)
include hg

/-- A callee is looked up in the workspace alone, and what is found is what its name means. -/
theorem Rendering.resolve_means {m : Machine} (hm : m.workspace.Filed notes) : ∃ r w,
    resolve settings env callee m = .done r { m with workspace := w } ∧ w.Filed notes ∧ Group.Means callee.name
      (Group.closest? callee.name (settings.group.reach env.here.bound.native callee)) r := by
  obtain ⟨r, w, hr, hw, hmeans⟩ := hm.closest callee.name hg
  refine ⟨r, w, ?_, hw, hmeans⟩
  rw [resolve_closest, inWorkspace]
  exact congrArg (fun p : Except Unresolved (Group × Program) × Workspace =>
    Course.done p.1 { m with workspace := p.2 }) hr

/-- A call makes an instance of what its name means, unless it fails. -/
theorem Rendering.instantiate_means (passed : Passed) :
    Attempt.Within .none (fun m => m.workspace.Filed notes) (Instance.Means settings.group callee.name
      (settings.group.reach env.here.bound.native callee)) (instantiate settings env callee passed) := by
  have hresolve : Within .none (fun m => m.workspace.Filed notes) (Group.Means callee.name
      (Group.closest? callee.name (settings.group.reach env.here.bound.native callee)))
      (resolve settings env callee) := fun m hm => by
    obtain ⟨r, w, hr, hw, hmeans⟩ := resolve_means hg hm
    rw [hr]
    exact .done ⟨hmeans, hw⟩
  refine .bind (.lift hresolve) fun r hr => ?_
  split
  · exact .bind (.lift (report_filed _ _)) fun _ _ => .failure
  · exact .bind (.lift (report_filed _ _)) fun _ _ => .failure
  · rename_i native program
    refine Within.mono (bindArguments_bare callee.name (.ofProgram settings.group native program none) passed) ?_
    intro made hmade j hj
    have hbare := hmade j hj
    have hnative : j.native = native := congrArg Instance.native hbare
    have hprogram : j.program = program := congrArg Instance.program hbare
    exact ⟨congrArg Instance.group hbare, hnative ▸ hprogram ▸ hr, congrArg Instance.enclosing hbare⟩

omit hg

/-- So does a call of a computed name. -/
theorem Rendering.instantiateComputed_means (hroot : ∀ g ∈ settings.group.tree, Group.Noted notes g.templates)
    (name : String) (passed : Passed) :
    Attempt.Within .none (fun m => m.workspace.Filed notes)
      (Instance.Means settings.group name settings.group.tree) (instantiateComputed settings env name passed) := by
  have hreach : ∀ g ∈ settings.group.reach env.here.bound.native ⟨name, false⟩, Group.Noted notes g.templates :=
    hroot
  unfold instantiateComputed
  split
  · exact .bind (.lift (report_filed _ _)) fun _ _ => .abandoned
  · exact instantiate_means hreach passed

end

/-- In a state, a callee leads to the closest definition of its name in some groups: looking it up comes to
that definition's program, and calls make instances of it, also if the name is computed. -/
structure Callee.LeadsInto (callee : Callee) (groups : List Group) (settings : Settings) (env : Env)
    (m : Machine) : Prop where
  resolved : ∃ r w, resolve settings env callee m = .done r { m with workspace := w } ∧
    Group.Means callee.name (Group.closest? callee.name groups) r
  called : ∀ passed, ((instantiate settings env callee passed).run m).Within .none fun made _ =>
    ∀ j ∈ made, j.Means settings.group callee.name groups
  computed : callee.inherited = false → ∀ passed,
    ((instantiateComputed settings env callee.name passed).run m).Within .none fun made _ =>
      ∀ j ∈ made, j.Means settings.group callee.name groups

/-- Names lead home. In every render of what a host holds, whatever it did before, each instance that runs
is at home in its native group. Wherever it calls, a name leads to the closest definition among the group
of the outermost template and what that imports, so to that group's own if it has one. With `super`, a
name leads to the closest definition among what the native group imports. -/
theorem names_lead_home (as : List Action) {id : String} {bound : Instance}
    (hb : (Host.empty.after as).instance? id = some bound) (i : Interpreter) (retain : Bool) (room : Option Nat) :
    let settings : Settings := ⟨i.depthLimit, bound.group, i.listener.getD bound.group.listener⟩
    let start : Machine := ⟨.empty retain, [], .output room, 0, (Host.empty.after as).workspace⟩
    ∀ env m, Reached settings bound start (.running env m) → env.here.bound.AtHome ∧
      ∀ callee : Callee, let groups := bound.group.reach env.here.bound.native callee
        (∀ place k, k.workspace = m.workspace → callee.LeadsInto groups settings (env.atPlace place) k) ∧
        (callee.inherited = false → ∀ d, Dict.find? bound.group.templates callee.name = some d →
          Group.closest? callee.name groups = some (bound.group, d)) := by
  intro settings start env m h
  obtain ⟨notes, hh⟩ := Host.Housed.empty.after as
  have hbound := hh.instances id bound hb
  obtain ⟨_, hall, hm⟩ := (housing_upheld hbound.noted_group).lasting.contract.reached
    (Facts.Upheld.start hbound retain (.output room) 0 hh.filed) h
  have hhere : env.here.bound.All (Instance.Housed notes) := hall env.here List.mem_cons_self
  have hnative := (List.forall_mem_append.mp hhere.bare.2).2
  refine ⟨hhere.bare.1, fun callee => ⟨fun place k hk => ?_, fun hi d hd => ?_⟩⟩
  · have hgroups : ∀ g ∈ settings.group.reach (env.atPlace place).here.bound.native callee,
        Group.Noted notes g.templates := by
      unfold Group.reach
      split
      · exact fun g hg => Group.noted_imports hnative g hg g g.mem_tree
      · exact hbound.noted_group
    have hfiled : k.workspace.Filed notes := hk ▸ hm.workspace
    obtain ⟨r, w, hr, -, hmeans⟩ := resolve_means hgroups hfiled
    refine ⟨⟨r, w, hr, hmeans⟩, fun passed => ?_, fun hi passed => ?_⟩
    · exact (instantiate_means hgroups passed k hfiled).mono fun _ _ h => h.1
    · rw [Group.reach, if_neg (hi ▸ Bool.false_ne_true)]
      exact (instantiateComputed_means hbound.noted_group callee.name passed k hfiled).mono fun _ _ h => h.1
  · rw [Group.reach, if_neg (hi ▸ Bool.false_ne_true)]
    exact Group.closest?_own hd

theorem names_lead_home_pages :
    let as : List Action := [.build (.create "inner" "inner"),
      .build (.define "inner" "page" (.ofNames ["title"]) "<title>!"),
      .build (.create "outer" "outer"), .build (.importing "outer" "inner"),
      .build (.define "outer" "page" (.ofNames ["title"]) "<super.page(title)>"),
      .observe (.instantiate "outer" "page" "page")]
    ∃ bound, (Host.empty.after as).instance? "page" = some bound ∧
      let i : Interpreter := {}
      let settings : Settings := ⟨i.depthLimit, bound.group, i.listener.getD bound.group.listener⟩
      let start : Machine := ⟨.empty false, [], .output none, 0, (Host.empty.after as).workspace⟩
      ∃ env m, Reached settings bound start (.running env m) ∧ env.here.bound.AtHome ∧
        ∀ callee : Callee, let groups := bound.group.reach env.here.bound.native callee
          (∀ place k, k.workspace = m.workspace → callee.LeadsInto groups settings (env.atPlace place) k) ∧
          (callee.inherited = false → ∀ d, Dict.find? bound.group.templates callee.name = some d →
            Group.closest? callee.name groups = some (bound.group, d)) := by
  intro as
  have hsome : ((Host.empty.after as).instance? "page").isSome = true := by decide +kernel
  obtain ⟨bound, hb⟩ := Option.isSome_iff_exists.mp hsome
  refine ⟨bound, hb, ?_⟩
  intro i settings start
  have hroot : Reached settings bound start
      (.running (start.enter none bound).1 (start.enter none bound).2) := .root rfl
  exact ⟨_, _, hroot, names_lead_home as hb {} false none _ _ hroot⟩

end Stencil
