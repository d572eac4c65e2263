import Stencil.Proofs.Filing
import Stencil.Proofs.Holding
import Stencil.Proofs.Reporting
import Stencil.Proofs.Sites
/-! Problems are told once. In a history of one group, whatever compiling a definition finds is told to the
receiver of the group, and each text of it once, however often the definition is compiled. -/

namespace Stencil

/-! ## Renders -/

/-- An instance looks up what it calls in groups of a kind only. -/
def Instance.Reaches (G : Group → Prop) (i : Instance) : Prop := ∀ g ∈ i.reach, G g

theorem Instance.all_reaches {G : Group → Prop} {i : Instance} :
    i.All (Instance.Reaches G) ↔ ∀ g ∈ i.groups, G g := i.alike_among

namespace Workspace

/-- All groups of a kind were accounted for, and what compiling their definitions makes of a workspace. -/
def Advances (cases : List Compilation) (said : String → List Diagnostic) (l : Listener) (G : Group → Prop)
    (w₀ w : Workspace) : Prop := ∃ more, w₀.Advance cases said l G w more

variable {w₀ : Workspace} {cases : List Compilation} {said : String → List Diagnostic} {l : Listener}
  {G : Group → Prop} {settings : Settings}

section

variable (hG : ∀ g, G g → g.Accounted cases w₀ l) (hroot : ∀ g ∈ settings.group.tree, G g)
include hG hroot

theorem Advances.resolves (name : String) {groups : List Group} (hgroups : ∀ x ∈ groups, ∀ y ∈ x.tree, G y) :
    (Facts.holding (Instance.Reaches G) (w₀.Advances cases said l G)).Resolves settings
      (Group.resolveFound name (Group.closest? name groups)) := by
  rintro _ _ w ⟨more, hw⟩
  obtain ⟨r, w', new, hr, hw', hok, -⟩ := hw.resolveFound name (Group.closest? name groups)
    fun native d hf => by
      obtain ⟨hm, hd⟩ := Group.mem_of_closest? hf
      have hnative := hgroups native hm native native.mem_tree
      exact ⟨hnative, hG native hnative, Dict.mem_of_find? hd⟩
  rw [hr]
  refine ⟨⟨_, hw'⟩, fun native program he => ?_⟩
  obtain ⟨d, hf⟩ := hok native program he
  exact List.forall_mem_append.mpr ⟨hroot, hgroups native (Group.mem_of_closest? hf).1⟩

theorem Advances.upheld : Facts.Upheld (Instance.Reaches G) (w₀.Advances cases said l G) settings where
  deliver _ _ hd := fun ⟨_, hw⟩ => ⟨_, hw.deliver _ hd⟩
  resolve name := by
    rw [Group.resolve, Group.find?_eq_closest?]
    exact resolves hG hroot name fun x hx y hy => hroot y (Group.tree_subset _ hx hy)
  resolveInherited i hi name := by
    rw [Group.resolveInherited, Group.findInherited?, Group.findIn?_eq_closest?]
    refine resolves hG hroot name fun x hx y hy => (List.forall_mem_append.mp hi).2 y ?_
    exact i.native.tree_eq ▸ List.mem_cons_of_mem _ (Group.treeIn_subset _ hx hy)
  enclosed _ hi _ _ _ _ := List.forall_mem_append.mpr ⟨hroot, (List.forall_mem_append.mp hi).2⟩

end

end Workspace

theorem Workspace.delivers_eq (w : Workspace) (l : Listener) (ds : List Diagnostic) :
    ∃ delivered, ds.foldl (fun w d => w.deliver l d) w = { w with delivered } := by
  induction ds generalizing w with
  | nil => exact ⟨w.delivered, rfl⟩
  | cons d ds ih => exact ih (w.deliver l d)

/-- Compiling source on the spot only delivers. -/
theorem Group.compileSource_run (g : Group) (source : String) (w : Workspace) :
    ∃ r delivered, (g.compileSource source).run w = (r, { w with delivered }) := by
  unfold compileSource
  cases Program.compile g.directory anonymousName .any source with
  | ok p => exact ⟨_, _, rfl⟩
  | error e =>
    obtain ⟨delivered, hd⟩ := w.delivers_eq g.listener e.diagnostics
    exact ⟨_, delivered, congrArg (Prod.mk (Except.error _)) hd⟩

theorem Group.none_of_undefined {name : String} {found : Option (Group × Definition)} {w w' : Workspace}
    (h : (resolveFound name found).run w = (.error .undefined, w')) : found = none := by
  cases found with
  | none => rfl
  | some f =>
    obtain ⟨native, d⟩ := f
    cases hc : (native.compiled name d).run w with
    | mk o v =>
      rw [resolveFound_run hc] at h
      cases o <;> cases h

/-! ## Hosts -/

namespace Host

/-- A host with one group, in which nothing is defined. -/
def sole (id name : String) (l : Listener) (renderers : List (ScalarKind × Renderer)) : Host :=
  ⟨[(id, ⟨name, [], [], l, renderers⟩)], [], .empty⟩

/-- A host holds a group, be it for an instance. -/
def Holds (h : Host) (g : Group) : Prop :=
  (∃ id x, h.group? id = some x ∧ g ∈ x.tree) ∨ ∃ id i, h.instance? id = some i ∧ g ∈ i.groups

/-- What an action delivers. -/
def news (h : Host) (a : Action) : List (Listener × Diagnostic) :=
  (h.perform a).2.workspace.delivered.toList.drop h.workspace.delivered.size

/-- What a receiver is told in an action of compiling the definition of a name. Source that is compiled on
the spot is no definition. -/
def tells (h : Host) (l : Listener) (name : String) : Action → List Diagnostic
  | .observe (.improvise ..) => []
  | a => told l name (h.news a)

/-- In an action a group that is held compiles its definition of a name, and that finds something. -/
def finds (h : Host) (name : String) (d : Diagnostic) (a : Action) : Prop :=
  ∃ g, h.Holds g ∧ g.Found h.workspace (h.perform a).2.workspace name d

/-- What a receiver is told in a history. -/
def tellsAll (h : Host) (l : Listener) (name : String) : List Action → List Diagnostic
  | [] => []
  | a :: as => h.tells l name a ++ (h.perform a).2.tellsAll l name as

/-- Something is found in a history. -/
def findsAny (h : Host) (name : String) (d : Diagnostic) : List Action → Prop
  | [] => False
  | a :: as => h.finds name d a ∨ (h.perform a).2.findsAny name d as

end Host

/-- An action adds a definition, or only asks. -/
def Action.isPlain : Action → Bool
  | .build (.define ..) | .observe _ => true
  | .build _ => false

/-- All groups that a host with one group holds are accounted for, and all that is accounted for has a name
that the group defines. -/
structure Host.Announces (h : Host) (id : String) (l : Listener) (cases : List Compilation)
    (said : String → List Diagnostic) : Prop where
  accounts : h.workspace.Accounts cases said
  accounted : ∀ g, h.Holds g → g.Accounted cases h.workspace l
  alone : ∀ other g, h.group? other = some g → other = id
  named : ∀ g, h.group? id = some g → ∀ c ∈ cases, c.name ∈ Dict.keys g.templates

namespace Host.Announces

variable {h : Host} {id : String} {l : Listener} {cases : List Compilation} {said : String → List Diagnostic}

theorem sole (id name : String) (l : Listener) (renderers : List (ScalarKind × Renderer)) :
    (Host.sole id name l renderers).Announces id l [] fun _ => [] where
  accounts := .empty
  accounted g hg := by
    obtain ⟨other, x, hx, hg⟩ | ⟨_, _, hi, -⟩ := hg
    · obtain ⟨-, rfl⟩ := Prod.mk.inj (List.mem_singleton.mp (Handles.mem_of_lookup hx))
      rw [List.mem_singleton.mp hg]
      exact ⟨rfl, nofun⟩
    · cases hi
  alone other g hg := (Prod.mk.inj (List.mem_singleton.mp (Handles.mem_of_lookup hg))).1
  named := nofun

theorem news_eq {a : Action} {more : List (Listener × Diagnostic)}
    (h' : (h.perform a).2.workspace.delivered.toList = h.workspace.delivered.toList ++ more) : h.news a = more := by
  rw [news, h', ← Array.length_toList, List.drop_left]

theorem holds_tree {g : Group} (hg : h.group? id = some g) : ∀ x ∈ g.tree, h.Holds x :=
  fun _ hx => .inl ⟨id, g, hg, hx⟩

theorem instance_reaches {i : Instance} (hi : h.instance? id = some i) : i.All (Instance.Reaches h.Holds) :=
  Instance.all_reaches.mpr fun _ hg => .inr ⟨id, i, hi, hg⟩

theorem resolve (hh : h.Announces id l cases said) {other : String} {g : Group} (hg : h.group? other = some g)
    (name : String) : ∃ r w' new, (Group.resolveFound name (g.find? name)).run h.workspace = (r, w') ∧
      h.workspace.Advance cases said l h.Holds w' new ∧
      (∀ native p, r = .ok (native, p) → ∀ x ∈ native.tree, h.Holds x) ∧
      (r = .error .compileFailed → ∃ d, d ∈ said name ++ told l name new) := by
  have hclosest (native : Group) (d : Definition) (hf : g.find? name = some (native, d)) :
      native ∈ g.tree ∧ (name, d) ∈ native.templates := by
    rw [Group.find?_eq_closest?] at hf
    obtain ⟨hm, hd⟩ := Group.mem_of_closest? hf
    exact ⟨hm, Dict.mem_of_find? hd⟩
  obtain ⟨r, w', new, hrun, hw, hok, hfailed⟩ :=
    (Workspace.Advance.refl (l := l) (G := h.Holds) hh.accounts).resolveFound name (g.find? name)
      fun native d hf => by
        obtain ⟨hm, hd⟩ := hclosest native d hf
        have hnative := holds_tree hg native hm
        exact ⟨hnative, hh.accounted native hnative, hd⟩
  refine ⟨r, w', new, hrun, hw, fun native p hr x hx => ?_, hfailed⟩
  obtain ⟨d, hf⟩ := hok native p hr
  exact holds_tree hg x (Group.tree_subset g (hclosest native d hf).1 hx)

/-- Asking, other than compiling source on the spot, compiles definitions of groups that are held. -/
theorem observe (hh : h.Announces id l cases said) {o : Observation}
    (ho : ∀ group id source, o ≠ .improvise group id source) :
    h.workspace.Advances cases said l h.Holds (h.observe o).2.workspace ∧
      ∀ g, (h.observe o).2.Holds g → h.Holds g := by
  have hleaves : Observation.Leaves (h.workspace.Advances cases said l h.Holds) (Instance.Reaches h.Holds)
      h.workspace (o.ask h.group? h.instance?) := by
    refine o.ask_leaves ⟨[], .refl hh.accounts⟩ (fun _ _ => instance_reaches) (fun other g name hg => ?_)
      (fun other g hg => ?_) (fun group id source _ he => absurd he (ho group id source))
      fun i hi interpreter room => ?_
    · obtain ⟨r, w', new, hrun, hw, hok, -⟩ := hh.resolve hg name
      rw [Group.lookup_run hrun]
      refine ⟨⟨_, hw⟩, fun native p hr => ?_⟩
      cases r with
      | error e => cases hr
      | ok found =>
        cases hr
        exact List.forall_mem_append.mpr ⟨holds_tree hg, hok _ _ rfl⟩
    · have hheld := holds_tree hg g g.mem_tree
      obtain ⟨failed, w', new, hrun, hw, -⟩ := Workspace.Advance.compileEach hheld (hh.accounted g hheld)
        (.refl hh.accounts) g.templates (List.Subset.refl _)
      rw [Group.compileAll, StateT.run_bind, hrun]
      cases failed <;> exact ⟨_, hw⟩
    · have hroot : ∀ g ∈ i.group.tree, h.Holds g := (List.forall_mem_append.mp hi.bare).1
      exact Facts.Upheld.renderTo interpreter room hi (Workspace.Advances.upheld hh.accounted hroot)
        ⟨[], .refl hh.accounts⟩
  obtain ⟨hw, hi⟩ := Host.observe_leaves hleaves fun _ _ => instance_reaches
  refine ⟨hw, fun g hg => ?_⟩
  obtain hg | ⟨other, i, hother, hg⟩ := hg
  · exact .inl hg
  · exact Instance.all_reaches.mp (hi other i hother) g hg

theorem holds_update {made : Option Instance} (hm : ∀ i, made = some i → ∀ g ∈ i.groups, h.Holds g)
    (id : String) (w : Workspace) {g : Group} (hg : Host.Holds ⟨h.groups, Handles.update id made h.instances, w⟩ g) :
    h.Holds g := by
  obtain hg | ⟨other, i, hi, hg⟩ := hg
  · exact .inl hg
  · rcases Handles.of_lookup_update hi with ⟨hmade, -⟩ | ⟨hi, -⟩
    · exact hm i hmade g hg
    · exact .inr ⟨other, i, hi, hg⟩

theorem improvise (h : Host) (group id source : String) : ∃ ds made,
    (h.observe (.improvise group id source)).2 =
        ⟨h.groups, Handles.update id made h.instances, { h.workspace with delivered := ds }⟩ ∧
      ∀ i, made = some i → ∀ g ∈ i.groups, h.Holds g := by
  cases hg : h.group? group with
  | none =>
    refine ⟨h.workspace.delivered, none, ?_, nofun⟩
    rw [Host.observe, Observation.ask, hg]
    rfl
  | some g =>
    obtain ⟨r, ds, hr⟩ := g.compileSource_run source h.workspace
    cases r with
    | error e =>
      refine ⟨ds, none, ?_, nofun⟩
      rw [Host.observe, Observation.ask, hg, Observation.ask.asking, StateT.run_bind, hr]
      rfl
    | ok p =>
      refine ⟨ds, some (.ofProgram g g p none), ?_, fun i hi x hx => ?_⟩
      · rw [Host.observe, Observation.ask, hg, Observation.ask.asking, StateT.run_bind, hr]
        rfl
      · cases hi
        rw [Instance.ofProgram, Instance.groups, Entries.groups, List.append_nil] at hx
        exact holds_tree hg x (or_self_iff.mp (List.mem_append.mp hx))

/-- A group is defined in as it is on its own. -/
theorem build_define {group name : String} {formals : Formals} {source : String} {g : Group}
    (hg : h.group? group = some g) {r : Except GroupError Group} {w : Workspace}
    (hr : (g.define name formals source).run h.workspace = (r, w)) :
    (h.build (.define group name formals source)).2 =
      ⟨Handles.update group r.toOption h.groups, h.instances, w⟩ := by
  rw [Host.build, Building.make, hg]
  dsimp only
  rw [StateT.run_bind, hr]
  cases r <;> rfl

/-- A group in the place of the one that is held, with the same imports. -/
theorem put (hh : h.Announces id l cases said) {g g' : Group} (hg : h.group? id = some g)
    {w : Workspace} {more : List Compilation} (hw : w.Accounts (cases ++ more) said)
    (ho : ∀ slot, w.outcome? slot = h.workspace.outcome? slot)
    (hmade : g'.Accounted (cases ++ more) w l) (hnames : ∀ c ∈ cases ++ more, c.name ∈ Dict.keys g'.templates)
    (himports : g'.imports = g.imports) :
    Host.Announces ⟨Handles.update id (some g') h.groups, h.instances, w⟩ id l (cases ++ more) said := by
  have hkeep {x : Group} (hx : h.Holds x) : x.Accounted (cases ++ more) w l :=
    (hh.accounted x hx).mono more fun slot o hs => (ho slot).trans hs
  refine ⟨hw, fun x hx => ?_, fun other k hk => ?_, fun k hk => ?_⟩
  · obtain ⟨other, k, hk, hx⟩ | hx := hx
    · rcases Handles.of_lookup_update (o := some g') hk with ⟨hk, -⟩ | ⟨hk, -⟩
      · cases hk
        rw [g'.tree_eq, himports] at hx
        rcases List.mem_cons.mp hx with rfl | hx
        · exact hmade
        · exact hkeep (holds_tree hg x (g.tree_eq ▸ List.mem_cons_of_mem _ hx))
      · exact hkeep (holds_tree hk x hx)
    · exact hkeep (.inr hx)
  · rcases Handles.of_lookup_update (o := some g') hk with ⟨-, he⟩ | ⟨hk, -⟩
    · exact he
    · exact hh.alone other k hk
  · rcases Handles.of_lookup_update (o := some g') hk with ⟨hk, -⟩ | ⟨-, hk | hk⟩
    · cases hk
      exact hnames
    · cases hk
    · exact absurd rfl hk

theorem define (hh : h.Announces id l cases said) (group name : String) (formals : Formals) (source : String) :
    ∃ more, (h.build (.define group name formals source)).2.Announces id l (cases ++ more) said ∧
      (h.build (.define group name formals source)).2.workspace.delivered = h.workspace.delivered ∧
      ∀ slot, (h.build (.define group name formals source)).2.workspace.outcome? slot = h.workspace.outcome? slot := by
  have hsame : h.Announces id l (cases ++ []) said := (List.append_nil cases).symm ▸ hh
  cases hg : h.group? group with
  | none =>
    have hbuild : (h.build (.define group name formals source)).2 = h := by
      rw [Host.build, Building.make, hg]
      rfl
    exact hbuild.symm ▸ ⟨[], hsame, rfl, fun _ => rfl⟩
  | some g =>
    have hrun := g.define_run name formals source h.workspace
    cases hr : g.refusal? name formals with
    | some e =>
      rw [hr] at hrun
      exact build_define hg hrun ▸ ⟨[], hsame, rfl, fun _ => rfl⟩
    | none =>
      obtain rfl := hh.alone group g hg
      cases hrenew : (Group.renewEach g.templates).run h.workspace with
      | mk es w' =>
        rw [hr, hrenew] at hrun
        obtain ⟨more, hw, hdelivered, ho, hmade, hnames⟩ := hh.accounts.define
          (hh.accounted g (holds_tree hg g g.mem_tree)) (hh.named g hg) (Group.not_mem_keys hr) formals source hrenew
        exact build_define hg hrun ▸ ⟨more, hh.put hg hw ho hmade hnames rfl, hdelivered, ho⟩

/-! ## Histories -/

theorem tells_observe {o : Observation} (ho : ∀ group id source, o ≠ .improvise group id source) (name : String) :
    h.tells l name (.observe o) = told l name (h.news (.observe o)) := by
  cases o with
  | improvise group id source => exact absurd rfl (ho group id source)
  | _ => rfl

/-- Where no outcome changes and nothing is told, nothing is found. -/
theorem quiet {a : Action} (hh : (h.perform a).2.Announces id l cases said)
    (htells : ∀ name, h.tells l name a = [])
    (ho : ∀ slot, (h.perform a).2.workspace.outcome? slot = h.workspace.outcome? slot) :
    (h.perform a).2.Announces id l cases (fun name => said name ++ h.tells l name a) ∧
      ∀ name, (∀ d ∈ h.tells l name a, h.finds name d a) ∧
        ∀ d, h.finds name d a → d.display ∈ (said name ++ h.tells l name a).map Diagnostic.display := by
  simp only [htells, List.append_nil]
  refine ⟨hh, fun name => ⟨List.forall_mem_nil _, fun d ⟨g, _, e, _, hn, ⟨_, hf⟩, _⟩ => ?_⟩⟩
  cases hn.symm.trans ((ho _).symm.trans hf)

/-- What is found in an action is told in it or was told before, and what is told is found. -/
theorem perform (hh : h.Announces id l cases said) {a : Action} (ha : a.isPlain = true) : ∃ more,
    (h.perform a).2.Announces id l (cases ++ more) (fun name => said name ++ h.tells l name a) ∧
      ∀ name, (∀ d ∈ h.tells l name a, h.finds name d a) ∧
        ∀ d, h.finds name d a → d.display ∈ (said name ++ h.tells l name a).map Diagnostic.display := by
  cases a with
  | build b =>
    cases b with
    | define group name formals source =>
      obtain ⟨more, hmore, hdelivered, ho⟩ := hh.define group name formals source
      have hnews : h.news (.build (.define group name formals source)) = [] :=
        news_eq ((congrArg Array.toList hdelivered).trans (List.append_nil _).symm)
      exact ⟨more, quiet hmore (fun name => congrArg (told l name) hnews) ho⟩
    | _ => cases ha
  | observe o =>
    refine ⟨[], ?_⟩
    rw [List.append_nil]
    by_cases ho : ∃ group id source, o = .improvise group id source
    · obtain ⟨group, other, source, rfl⟩ := ho
      obtain ⟨ds, made, hrun, hmade⟩ := improvise h group other source
      refine quiet ?_ (fun _ => rfl) fun slot => ?_
      · rw [Host.perform, hrun]
        exact ⟨hh.accounts.of_eq rfl rfl,
          fun g hg => (hh.accounted g (holds_update hmade _ _ hg)).lasting fun _ _ ho => ho, hh.alone, hh.named⟩
      · rw [Host.perform, hrun]
        rfl
    · have ho (group id source : String) : o ≠ .improvise group id source := fun he => ho ⟨_, _, _, he⟩
      obtain ⟨⟨more, hw⟩, hholds⟩ := hh.observe ho
      have htells (name : String) : h.tells l name (.observe o) = told l name more := by
        rw [tells_observe ho, news_eq (a := .observe o) hw.delivered]
      simp only [htells]
      refine ⟨⟨hw.accounts, fun g hg => (hh.accounted g (hholds g hg)).lasting hw.lasting, hh.alone, hh.named⟩,
        fun name => ⟨hw.found name, fun d hd => ?_⟩⟩
      obtain ⟨g, hg, definition, he, hn, ⟨retry, hf⟩, hd⟩ := hd
      obtain ⟨directory, hc, hopen⟩ := (hh.accounted g hg).noted _ he
      cases hopen hn
      exact (hw.accounts.failed _ _ retry hc hf).2 d hd

/-- What is found in a history is told in it, and what is told is found. -/
theorem after (hh : h.Announces id l cases said) {as : List Action} (ha : ∀ a ∈ as, a.isPlain = true) :
    ∃ cases', (h.after as).Announces id l cases' (fun name => said name ++ h.tellsAll l name as) ∧
      ∀ name, (∀ d ∈ h.tellsAll l name as, h.findsAny name d as) ∧
        ∀ d, h.findsAny name d as → d.display ∈ (said name ++ h.tellsAll l name as).map Diagnostic.display := by
  induction as generalizing h cases said with
  | nil =>
    refine ⟨cases, ?_, fun name => ⟨List.forall_mem_nil _, fun _ hd => hd.elim⟩⟩
    simpa only [Host.after, Host.tellsAll, List.append_nil] using hh
  | cons a as ih =>
    obtain ⟨ha, has⟩ := List.forall_mem_cons.mp ha
    obtain ⟨more, hstep, hfound⟩ := hh.perform ha
    obtain ⟨cases', hlast, hrest⟩ := ih hstep has
    simp only [List.append_assoc] at hlast hrest
    refine ⟨cases', hlast, fun name => ⟨fun d hd => ?_, fun d hd => ?_⟩⟩
    · rcases List.mem_append.mp hd with hd | hd
      · exact .inl ((hfound name).1 d hd)
      · exact .inr ((hrest name).1 d hd)
    · rcases hd with hd | hd
      · have htold := (hfound name).2 d hd
        rw [Host.tellsAll, ← List.append_assoc, List.map_append]
        exact List.mem_append_left _ htold
      · exact (hrest name).2 d hd

/-- When looking up a template is refused, it is not there or something is told of it. -/
theorem refused (hh : h.Announces id l cases said) {g : Group} (hg : h.group? id = some g) {name : String}
    {e : GroupError} (he : (h.perform (.observe (.lookup id name))).1 = .refused e) :
    g.contains name = false ∨ ∃ d, d ∈ said name ++ h.tells l name (.observe (.lookup id name)) := by
  obtain ⟨r, w', new, hrun, hw, -, hfailed⟩ := hh.resolve hg name
  have hlookup := Host.observe_lookup hg (Group.lookup_run hrun)
  have htells : h.tells l name (.observe (.lookup id name)) = told l name new := by
    refine congrArg (told l name) (news_eq ?_)
    rw [Host.perform, hlookup]
    exact hw.delivered
  rw [Host.perform, hlookup] at he
  cases r with
  | ok found => cases he
  | error unresolved =>
    cases unresolved with
    | undefined =>
      refine .inl ?_
      rw [Group.contains, Group.none_of_undefined hrun]
      rfl
    | compileFailed => exact .inr (htells ▸ hfailed rfl)

end Host.Announces

namespace Host

variable {h : Host} {l : Listener} {name : String} {as : List Action}

theorem finds_of_findsAny {d : Diagnostic} (hd : h.findsAny name d as) :
    ∃ c : Compilation, c.name = name ∧ c.Finds d := by
  induction as generalizing h with
  | nil => cases hd
  | cons a as ih =>
    rcases hd with ⟨_, -, _, -, -, -, hd⟩ | hd
    · exact ⟨_, rfl, Compilation.finds_of_mem hd⟩
    · exact ih hd

theorem tellsAll_concat (a : Action) :
    h.tellsAll l name (as ++ [a]) = h.tellsAll l name as ++ (h.after as).tells l name a := by
  induction as generalizing h with
  | nil => exact List.append_nil _
  | cons b as ih => rw [List.cons_append, tellsAll, ih, tellsAll, after, List.append_assoc]

theorem length_of_nodup {ds : List Diagnostic} {d : Diagnostic} {t : String} (h : (ds.map Diagnostic.display).Nodup)
    (hd : d ∈ ds) (ht : ∀ x ∈ ds, x.display = t) : ds.length = 1 := by
  match ds with
  | [] => cases hd
  | [_] => rfl
  | x :: y :: _ =>
    rw [List.map_cons, List.nodup_cons] at h
    have hx := ht x List.mem_cons_self
    have hy := ht y (List.mem_cons_of_mem _ List.mem_cons_self)
    exact absurd (hx.trans hy.symm ▸ List.mem_cons_self) h.1

/-- Problems are told once. In every history of a group with one receiver, and for every template, what is told
of compiling it was found, each text of it is told once, and no site of a problem is left out that was
found. So a site is told once if compiling always found the same text there. When looking up a template
is refused, something was told of it. -/
theorem problems_told (id name : String) (l : Listener) (renderers : List (ScalarKind × Renderer))
    (ha : ∀ a ∈ as, a.isPlain = true) (template : String) :
    let h := sole id name l renderers
    let said := h.tellsAll l template as
    (∀ d ∈ said, h.findsAny template d as) ∧
      (said.map Diagnostic.display).Nodup ∧
      (∀ d, h.findsAny template d as → ∃ d' ∈ said, d'.site = d.site ∧ d'.display = d.display) ∧
      (∀ d, h.findsAny template d as →
        (∀ d', h.findsAny template d' as → d'.site = d.site → d'.display = d.display) →
          (said.filter (·.site = d.site)).length = 1) ∧
      ∀ e, ((h.after as).perform (.observe (.lookup id template))).1 = .refused e →
        (∀ g, (h.after as).group? id = some g → g.contains template = false) ∨
          h.tellsAll l template (as ++ [.observe (.lookup id template)]) ≠ [] := by
  intro h said
  obtain ⟨cases, hh, htold⟩ := (Announces.sole id name l renderers).after ha
  simp only [List.nil_append] at hh htold
  obtain ⟨hfound, hall⟩ := htold template
  have honce : (said.map Diagnostic.display).Nodup := hh.accounts.once template
  have hsite (d : Diagnostic) (hd : h.findsAny template d as) :
      ∃ d' ∈ said, d'.site = d.site ∧ d'.display = d.display := by
    obtain ⟨d', hd', htext⟩ := List.mem_map.mp (hall d hd)
    -- a text tells its site
    obtain ⟨c, hc, hfinds⟩ := finds_of_findsAny hd
    obtain ⟨c', hc', hfinds'⟩ := finds_of_findsAny (hfound d' hd')
    exact ⟨d', hd', hfinds'.site_eq hfinds (hc'.trans hc.symm) htext, htext⟩
  refine ⟨hfound, honce, hsite, fun d hd hsame => ?_, fun e he => ?_⟩
  · obtain ⟨d', hd', hs, -⟩ := hsite d hd
    refine length_of_nodup (t := d.display) (honce.sublist (List.filter_sublist.map _))
      (List.mem_filter.mpr ⟨hd', decide_eq_true hs⟩) fun x hx => ?_
    obtain ⟨hm, hs⟩ := List.mem_filter.mp hx
    exact hsame x (hfound x hm) (of_decide_eq_true hs)
  · cases hg : (h.after as).group? id with
    | none => exact .inl nofun
    | some g =>
      rcases hh.refused hg he with hn | ⟨d, hd⟩
      · exact .inl fun g' hg' => Option.some.inj hg' ▸ hn
      · exact .inr (List.ne_nil_of_mem (tellsAll_concat _ ▸ hd))

theorem problems_told_draft :
    let as : List Action := [.build (.define "main" "page" .any "<missing()>"), .observe (.lookup "main" "page"),
      .build (.define "main" "site" .any "<page()>"), .observe (.lookup "main" "page")]
    let h := sole "main" "main" (.named "log") []
    (∀ a ∈ as, a.isPlain = true) ∧ ∃ d, h.findsAny "page" d as ∧
      d.display = "page 1:2: no such template: missing" ∧
      ((h.tellsAll (.named "log") "page" as).filter (·.site = d.site)).length = 1 := by
  intro as h
  have ha : ∀ a ∈ as, a.isPlain = true := by decide
  obtain ⟨hfound, -, hall, honce, -⟩ := problems_told "main" "main" (.named "log") [] ha "page"
  have hsaid : (h.tellsAll (.named "log") "page" as).map Diagnostic.display =
      ["page 1:2: no such template: missing"] := by
    decide +kernel
  obtain ⟨d, hd, htext⟩ := List.mem_map.mp (hsaid ▸ List.mem_singleton.mpr rfl)
  refine ⟨ha, d, hfound d hd, htext, honce d (hfound d hd) fun d' hd' _ => ?_⟩
  obtain ⟨x, hx, -, hx'⟩ := hall d' hd'
  exact hx'.symm.trans ((List.mem_singleton.mp (hsaid ▸ List.mem_map_of_mem hx)).trans htext.symm)

/-- A site is told again when a name arrives that is suggested there. -/
example : ((sole "main" "main" (.named "log") []).tellsAll (.named "log") "page"
    [.build (.define "main" "page" .any "<helo()>"), .observe (.lookup "main" "page"),
      .build (.define "main" "hello" .any "Hello"), .observe (.lookup "main" "page")]).map Diagnostic.display =
    ["page 1:2: no such template: helo", "page 1:2: no such template: helo (did you mean hello?)"] := by
  decide +kernel

end Host

end Stencil
