import Stencil.Proofs.Announcing
import Stencil.Proofs.Telling
/-! What the actions of a host deliver. All that comes of compiling is found in definitions of groups that the host
holds, or in source that the action has one of them compile on the spot. -/

namespace Stencil

/-! ## Actions of a workspace -/

/-- Whatever was delivered before, of all that an action delivers something is known. -/
def Delivers {α : Type} (P : Diagnostic → Prop) (action : StateM Workspace α) : Prop :=
  ∀ w : Workspace, w.Adds (fun _ t => P t.2) (action.run w).2

namespace Delivers

variable {α β : Type} {P Q : Diagnostic → Prop} {action : StateM Workspace α}

theorem pure (a : α) : Delivers P (Pure.pure a : StateM Workspace α) := fun w => .refl w

theorem bind {f : α → StateM Workspace β} (h : Delivers P action) (hf : ∀ a, Delivers P (f a)) :
    Delivers P (action >>= f) := fun w => (h w).trans (hf _ _)

theorem mono (h : Delivers P action) (hP : ∀ d, P d → Q d) : Delivers Q action :=
  fun w => (h w).mono fun _ t _ _ => hP t.2

theorem nothing (h : ∀ w, (action.run w).2.delivered = w.delivered) : Delivers P action := fun w =>
  ⟨#[], (h w).trans Array.append_empty.symm, fun _ _ ht => by simp at ht⟩

end Delivers

namespace Group

variable (g : Group) {P : Diagnostic → Prop}

/-- Compiling a definition delivers what is found in it. -/
theorem compiled_delivers (name : String) (d : Definition) :
    Delivers (Compilation.of g.directory (name, d)).Finds (g.compiled name d) := by
  intro w
  cases ho : w.outcome? d.slot with
  | some o =>
    rw [g.compiled_kept name ho]
    exact .refl w
  | none =>
    unfold compiled
    simp only [StateT.run_bind, StateT.run_get, pure_bind, ho]
    cases hc : Program.compile g.directory name d.formals d.source with
    | ok p => exact ⟨#[], Array.append_empty.symm, fun _ _ ht => by simp at ht⟩
    | error e =>
      have hfinds := (Compilation.finds_of_error (c := .of g.directory (name, d)) hc).2
      obtain ⟨_, told, htold, hrun⟩ := Workspace.reports_append d.slot g.listener w.slots e.diagnostics w.reports
      exact .append (congrArg Workspace.delivered (hrun w.delivered)) fun t ht _ => hfinds _ (htold t ht)

theorem resolveFound_delivers {name : String} {found : Option (Group × Definition)}
    (h : ∀ native e, found = some (native, e) → ∀ d, (Compilation.of native.directory (name, e)).Finds d → P d) :
    Delivers P (resolveFound name found) := by
  cases found with
  | none => exact .pure _
  | some f =>
    refine .bind ((f.1.compiled_delivers name f.2).mono (h f.1 f.2 rfl)) fun p => ?_
    cases p <;> exact .pure _

/-- What resolving gives is a definition of the group that was found. -/
theorem of_resolveFound {name : String} {found : Option (Group × Definition)} {w : Workspace} {native : Group}
    {p : Program} (h : ((resolveFound name found).run w).1 = .ok (native, p)) : ∃ e, found = some (native, e) := by
  cases found with
  | none => cases h
  | some f =>
    obtain ⟨g, e⟩ := f
    obtain ⟨o, w', hrun⟩ : ∃ o w', (g.compiled name e).run w = (o, w') := ⟨_, _, rfl⟩
    rw [resolveFound_run hrun] at h
    cases o with
    | none => cases h
    | some p =>
      cases h
      exact ⟨e, rfl⟩

/-- Of all that is found in definitions of some groups something is known. -/
def Knows (P : Diagnostic → Prop) (groups : List Group) : Prop :=
  ∀ g ∈ groups, ∀ e ∈ g.templates, ∀ d, (Compilation.of g.directory e).Finds d → P d

theorem closest_delivers (name : String) {groups : List Group} (h : Knows P groups) :
    Delivers P (resolveFound name (closest? name groups)) :=
  resolveFound_delivers fun native _ hf =>
    have ⟨hg, hd⟩ := mem_of_closest? hf
    h native hg _ (Dict.mem_of_find? hd)

theorem lookup_delivers (name : String) (h : Knows P g.tree) : Delivers P (g.lookup name) := by
  refine .bind ?_ fun r => by cases r <;> exact .pure _
  rw [resolve, find?_eq_closest?]
  exact closest_delivers name h

theorem compileEach_delivers : (es : List (String × Definition)) →
    (∀ e ∈ es, ∀ d, (Compilation.of g.directory e).Finds d → P d) → Delivers P (g.compileEach es)
  | [], _ => .pure _
  | (name, d) :: rest, h =>
      have ⟨hd, hrest⟩ := List.forall_mem_cons.mp h
      .bind ((g.compiled_delivers name d).mono hd) fun _ => .bind (compileEach_delivers rest hrest) fun _ => .pure _

theorem compileAll_delivers (h : Knows P g.tree) : Delivers P g.compileAll :=
  .bind (g.compileEach_delivers _ (h g g.mem_tree)) fun failed => by cases failed <;> exact .pure _

theorem compileSource_delivers (source : String) :
    Delivers (Compilation.Finds ⟨anonymousName, .any, source, g.directory⟩) (g.compileSource source) := by
  have hdeliver {P : Diagnostic → Prop} {ds : List Diagnostic} (h : ∀ d ∈ ds, P d) (w : Workspace) :
      w.Adds (fun _ t => P t.2) (ds.foldl (fun w d => w.deliver g.listener d) w) := by
    induction ds generalizing w with
    | nil => exact .refl w
    | cons d ds ih =>
      obtain ⟨hd, hds⟩ := List.forall_mem_cons.mp h
      exact .trans (.deliver w hd) (ih hds _)
  unfold compileSource
  cases hc : Program.compile g.directory anonymousName .any source with
  | ok p => exact .pure _
  | error e =>
    have hfinds := (Compilation.finds_of_error (c := ⟨anonymousName, .any, source, g.directory⟩) hc).2
    exact fun w => hdeliver hfinds w

theorem renewEach_delivered : (w : Workspace) → (es : List (String × Definition)) →
    ((renewEach es).run w).2.delivered = w.delivered
  | _, [] => rfl
  | w, (_, d) :: rest => by
      rw [renewEach_cons]
      refine (renewEach_delivered _ rest).trans ?_
      rw [Workspace.renew]
      split <;> rfl

theorem define_delivered (name : String) (formals : Formals) (source : String) (w : Workspace) :
    ((g.define name formals source).run w).2.delivered = w.delivered := by
  rw [g.define_run]
  split
  · rfl
  · exact renewEach_delivered w g.templates

end Group

/-- Building delivers nothing. -/
theorem Building.make_delivers {P : Diagnostic → Prop} (groups : String → Option Group) (b : Building) :
    Delivers P (b.make groups) := by
  cases b with
  | create id name | clone group id | listening group listener | registering group kind renderer => exact .pure _
  | importing group other =>
    rw [make]
    split <;> exact .pure _
  | define group name formals source =>
    rw [make]
    split
    · exact .bind (.nothing (Group.define_delivered _ name formals source)) fun _ => .pure _
    · exact .pure _

/-! ## Actions of a host -/

/-- What an action has a group compile that the host holds: a definition, or source on the spot. -/
inductive Compilation.Within (h : Host) (a : Action) (c : Compilation) : Prop where
  | definition {g : Group} {e : String × Definition} (held : h.Holds g) (defined : e ∈ g.templates)
      (is : c = .of g.directory e)
  | source {g : Group} {group id source : String} (asked : a = .observe (.improvise group id source))
      (held : h.group? group = some g) (is : c = ⟨Group.anonymousName, .any, source, g.directory⟩)

/-- A diagnostic that comes of compiling something that an action compiles. -/
def Diagnostic.Found (h : Host) (a : Action) (d : Diagnostic) : Prop := ∃ c : Compilation, c.Within h a ∧ c.Finds d

namespace Host

variable {h : Host} {a : Action}

theorem knows {groups : List Group} (hg : ∀ g ∈ groups, h.Holds g) : Group.Knows (Diagnostic.Found h a) groups :=
  fun g hm _ he _ hd => ⟨_, .definition (hg g hm) he rfl, hd⟩

theorem knows_tree {id : String} {g : Group} (hg : h.group? id = some g) : Group.Knows (Diagnostic.Found h a) g.tree :=
  knows (Announces.holds_tree hg)

/-- Asking, but for rendering, delivers what comes of compiling. -/
theorem ask_delivers {o : Observation} (ho : ∀ id i room, o ≠ .render id i room) :
    Delivers (Diagnostic.Found h (.observe o)) (o.ask h.group? h.instance?) := by
  have hasking {α : Type} {held : Option α} {f : α → StateM Workspace (Answer × Option Instance)}
      (hf : ∀ a, held = some a → Delivers (Diagnostic.Found h (.observe o)) (f a)) :
      Delivers (Diagnostic.Found h (.observe o)) (Observation.ask.asking held f) := by
    cases held with
    | none => exact .pure _
    | some a => exact hf a rfl
  cases o with
  | lookup group name | disassemble group name | instantiate group id name =>
    exact hasking fun g hg => .bind (g.lookup_delivers name (knows_tree hg)) fun r => by cases r <;> exact .pure _
  | compileAll group =>
    exact hasking fun g hg => .bind (g.compileAll_delivers (knows_tree hg)) fun r => by cases r <;> exact .pure _
  | improvise group id source =>
    refine hasking fun g hg => .bind ((g.compileSource_delivers source).mono fun d hd => ?_) fun r => by
      cases r <;> exact .pure _
    exact ⟨_, .source rfl hg rfl, hd⟩
  | names group | sourceOf group name => exact hasking fun g _ => .pure _
  | set id name value | append id name value =>
    refine hasking fun i _ => ?_
    split <;> exact .pure _
  | render id i room => exact absurd rfl (ho id i room)

/-- What a render delivers that does not come of rendering is found in what the host holds. -/
theorem upheld {settings : Settings} (w₀ : Workspace) (hroot : ∀ g ∈ settings.group.tree, h.Holds g) :
    Facts.Upheld (Instance.Reaches h.Holds)
      (w₀.Adds fun _ t => t.2.phase = .compile → t.2.Found h a) settings where
  deliver w d hd hw := hw.trans (.deliver w fun hp => nomatch hd.symm.trans hp)
  resolve name := by
    rw [Group.resolve, Group.find?_eq_closest?]
    exact resolves name hroot (fun x hx y hy => hroot y (Group.tree_subset _ hx hy))
  resolveInherited i hi name := by
    have himports : ∀ x ∈ Group.treeIn i.native.imports, h.Holds x := fun x hx =>
      (List.forall_mem_append.mp hi).2 x (i.native.tree_eq ▸ List.mem_cons_of_mem _ hx)
    rw [Group.resolveInherited, Group.findInherited?, Group.findIn?_eq_closest?]
    exact resolves name himports fun x hx y hy => himports y (Group.treeIn_subset _ hx hy)
  enclosed _ hi _ _ _ _ := List.forall_mem_append.mpr ⟨hroot, (List.forall_mem_append.mp hi).2⟩
where
  resolves (name : String) {groups : List Group} (hg : ∀ g ∈ groups, h.Holds g)
      (hgs : ∀ x ∈ groups, ∀ y ∈ x.tree, h.Holds y) :
      (Facts.holding (Instance.Reaches h.Holds) (w₀.Adds fun _ t => t.2.phase = .compile → t.2.Found h a)).Resolves
        settings (Group.resolveFound name (Group.closest? name groups)) := by
    intro _ _ w hw
    have hw : w₀.Adds (fun _ t => t.2.phase = .compile → t.2.Found h a) w := hw
    refine ⟨hw.trans (Group.closest_delivers name (P := fun d => d.phase = .compile → d.Found h a)
      (fun g hm e he d hd _ => knows hg g hm e he d hd) w), fun native p hr => ?_⟩
    obtain ⟨e, hf⟩ := Group.of_resolveFound hr
    exact List.forall_mem_append.mpr ⟨hroot, hgs native (Group.mem_of_closest? hf).1⟩

theorem of_news {P : Diagnostic → Prop} (hw : h.workspace.Adds (fun _ t => P t.2) (h.perform a).2.workspace) :
    ∀ t ∈ h.news a, P t.2 := by
  obtain ⟨more, hmore, hP⟩ := hw
  intro t ht
  rw [Announces.news_eq (by rw [hmore, Array.toList_append]), Array.mem_toList_iff] at ht
  obtain ⟨i, hi⟩ := Array.getElem?_of_mem ht
  exact hP i t hi

end Host

end Stencil
