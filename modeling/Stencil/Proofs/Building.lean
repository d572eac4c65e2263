import Stencil.Proofs.Imports
import Stencil.Proofs.Soundness
import Stencil.Render.Interpreter
/-! Groups that a host builds and compiles before it renders. -/

namespace Stencil

/-! ## Building -/

/-- The groups that a host holds when it has made some, defined templates in them and imported them into
one another, and has compiled nothing. It may go on with any group that it ever held. -/
inductive Built : Workspace → List Group → Prop where
  | start : Built .empty []
  | create {w gs} (name : String) : Built w gs → Built w (.empty name :: gs)
  | define {w gs g g' w'} {name source : String} {formals : Formals} : Built w gs → g ∈ gs →
      (g.define name formals source).run w = (.ok g', w') → Built w' (g' :: gs)
  | importing {w gs g other} : Built w gs → g ∈ gs → other ∈ gs → Built w (g.importing other :: gs)
  | listeningAt {w gs g} (listener : Listener) : Built w gs → g ∈ gs →
      Built w (g.listeningAt listener :: gs)
  | registering {w gs g} (kind : ScalarKind) (renderer : Renderer) : Built w gs → g ∈ gs →
      Built w (g.registering kind renderer :: gs)

/-- What definitions are made of: a name, parameters and a source. -/
abbrev Making := String × Formals × String

/-- Definitions are made of what is noted for their slots. -/
def Group.Noted (notes : List Making) (es : List (String × Definition)) : Prop :=
  ∀ e ∈ es, notes[e.2.slot]? = some (e.1, e.2.formals, e.2.source)

/-- Each slot is noted down, and nothing is compiled. -/
structure Workspace.Unused (w : Workspace) (notes : List Making) : Prop where
  size : w.slots.size = notes.length
  outcome : ∀ slot, w.outcome? slot = none

theorem Group.Noted.append {notes : List Making} {es : List (String × Definition)}
    (h : Group.Noted notes es) (more : List Making) : Group.Noted (notes ++ more) es := by
  intro e he
  have hlt := (List.getElem?_eq_some_iff.mp (h e he)).1
  rw [List.getElem?_append_left hlt]
  exact h e he

/-- A new slot. -/
theorem Workspace.Unused.push {w : Workspace} {notes : List Making} (h : w.Unused notes) (reports : Nat)
    (texts : Array (List String)) (making : Making) :
    Workspace.Unused { w with slots := w.slots.push ⟨none, reports⟩, reports := texts }
      (notes ++ [making]) where
  size := by simp [h.size]
  outcome slot := by
    have ho := h.outcome slot
    simp only [outcome?, Array.getElem?_push] at ho ⊢
    split
    · rfl
    · exact ho

/-- Definitions that are renewed have slots of their own. -/
theorem Group.renewEach_noted : {w : Workspace} → {notes : List Making} → w.Unused notes →
    (es : List (String × Definition)) → ∃ more,
      ((Group.renewEach es).run w).2.Unused (notes ++ more) ∧
        Group.Noted (notes ++ more) ((Group.renewEach es).run w).1
  | w, notes, h, [] => ⟨[], (List.append_nil notes).symm ▸ h, nofun⟩
  | w, notes, h, (name, d) :: rest => by
      have hstale : w.isStale d.slot = true := by
        rw [Workspace.isStale, h.outcome]
      have hpush := h.push ((w.slots[d.slot]?.map Slot.reports).getD 0) w.reports (name, d.formals, d.source)
      obtain ⟨more, hw, hn⟩ := renewEach_noted hpush rest
      refine ⟨(name, d.formals, d.source) :: more, ?_⟩
      rw [List.append_assoc, List.singleton_append] at hw hn
      have hrenew : w.renew d.slot = (w.slots.size,
          { w with slots := w.slots.push ⟨none, (w.slots[d.slot]?.map Slot.reports).getD 0⟩ }) := by
        rw [Workspace.renew, if_pos hstale]
      have hrun : (renewEach ((name, d) :: rest)).run w =
          ((name, { d with slot := (w.renew d.slot).1 }) :: ((renewEach rest).run (w.renew d.slot).2).1,
            ((renewEach rest).run (w.renew d.slot).2).2) := rfl
      rw [hrun, hrenew]
      refine ⟨hw, List.forall_mem_cons.mpr ⟨?_, hn⟩⟩
      simp [h.size]

/-- A definition gets a slot, and the others of its group get new ones. -/
theorem Group.define_noted {w w' : Workspace} {notes : List Making} (h : w.Unused notes) {g g' : Group}
    {name source : String} {formals : Formals}
    (hd : (g.define name formals source).run w = (.ok g', w')) :
    ∃ more, w'.Unused (notes ++ more) ∧ Group.Noted (notes ++ more) g'.templates := by
  obtain ⟨more, hw, hn⟩ := Group.renewEach_noted h g.templates
  have hpush := hw.push ((renewEach g.templates).run w).2.reports.size
    (((renewEach g.templates).run w).2.reports.push []) (name, formals, source)
  rw [List.append_assoc] at hpush
  unfold define at hd
  split at hd
  · cases hd
  · split at hd
    · cases hd
    · split at hd
      · cases hd
      · cases hd
        refine ⟨more ++ [(name, formals, source)], hpush, fun e he => ?_⟩
        rw [← List.append_assoc]
        rcases Dict.mem_of_mem_insert he with rfl | he
        · have hslot : (((renewEach g.templates).run w).2.allocate).1 = (notes ++ more).length := hw.size
          have hlast := List.getElem?_concat_length (l := notes ++ more) (a := (name, formals, source))
          rw [← hslot] at hlast
          exact hlast
        · exact hn.append _ e he

/-- What a host built is noted down. -/
theorem Built.noted {w : Workspace} {gs : List Group} (h : Built w gs) : ∃ notes, w.Unused notes ∧
    ∀ g ∈ gs, Group.Noted notes g.templates := by
  induction h with
  | start => exact ⟨[], ⟨rfl, fun _ => rfl⟩, nofun⟩
  | create name _ ih =>
    obtain ⟨notes, hw, hall⟩ := ih
    exact ⟨notes, hw, List.forall_mem_cons.mpr ⟨nofun, hall⟩⟩
  | define _ hg hd ih =>
    obtain ⟨notes, hw, hall⟩ := ih
    obtain ⟨more, hw', hn⟩ := Group.define_noted hw hd
    exact ⟨notes ++ more, hw', List.forall_mem_cons.mpr ⟨hn, fun h hh => (hall h hh).append _⟩⟩
  | importing _ hg _ ih | listeningAt _ _ hg ih | registering _ _ _ hg ih =>
    obtain ⟨notes, hw, hall⟩ := ih
    have hsame := hall _ hg
    exact ⟨notes, hw, List.forall_mem_cons.mpr ⟨hsame, hall⟩⟩

/-! ## Compiling -/

/-- Groups are compiled one after the other, without failure. -/
inductive Compiles : Workspace → List Group → Workspace → Prop where
  | nil (w) : Compiles w [] w
  | cons {w w₁ w₂ g gs n} : g.compileAll.run w = (.ok n, w₁) → Compiles w₁ gs w₂ → Compiles w (g :: gs) w₂

/-- Programs are kept in the slots of the definitions that they are compiled from, in one of the groups. -/
structure Workspace.Compiled (w : Workspace) (notes : List Making) (order : List Group) : Prop where
  size : w.slots.size = notes.length
  ready : ∀ slot p, w.outcome? slot = some (.ready p) → ∃ g ∈ order, ∃ e ∈ g.templates, e.2.slot = slot ∧
    Program.compile g.directory e.1 e.2.formals e.2.source = .ok p

/-- What is compiled stays so. -/
def Workspace.Keeps (w w' : Workspace) : Prop :=
  ∀ slot outcome, w.outcome? slot = some outcome → w'.outcome? slot = some outcome

theorem Workspace.outcome?_settle (w : Workspace) (slot other : Nat) (outcome : Outcome) :
    (w.settle slot outcome).outcome? other =
      if slot = other ∧ slot < w.slots.size then some outcome else w.outcome? other := by
  simp only [Workspace.outcome?, settle, Array.getElem?_modify]
  by_cases hs : slot = other
  · subst hs
    rcases Nat.lt_or_ge slot w.slots.size with hlt | hge
    · simp [hlt]
    · simp [Nat.not_lt.mpr hge]
  · simp [hs]

variable {notes : List Making} {order gs : List Group} {w w' : Workspace} {g root : Group}

/-- A definition that compiles is ready from then on. -/
theorem Workspace.Compiled.compiled (h : w.Compiled notes order) (hg : g ∈ order) {name : String}
    {d : Definition} (he : (name, d) ∈ g.templates) (hn : d.slot < notes.length) {p : Program}
    (hr : (g.compiled name d).run w = (some p, w')) :
    w'.Compiled notes order ∧ w.Keeps w' ∧ w'.outcome? d.slot = some (.ready p) := by
  unfold Group.compiled at hr
  simp only [StateT.run_bind, StateT.run_get, pure_bind] at hr
  split at hr
  · rename_i outcome ho
    cases outcome with
    | ready program =>
      cases hr
      exact ⟨h, fun _ _ => id, ho⟩
    | failed retry => cases hr
  · rename_i ho
    split at hr
    · rename_i program hp
      change (some program, w.settle d.slot (.ready program)) = (some p, w') at hr
      obtain ⟨hprogram, rfl⟩ := Prod.mk.inj hr
      cases Option.some.inj hprogram
      have hsettle := w.outcome?_settle d.slot
      refine ⟨⟨?_, fun slot q hq => ?_⟩, fun slot outcome hslot => ?_, ?_⟩
      · exact (Array.size_modify ..).trans h.size
      · rw [hsettle] at hq
        split at hq
        · rename_i hs
          cases Outcome.ready.inj (Option.some.inj hq)
          exact ⟨g, hg, _, he, hs.1, hp⟩
        · exact h.ready slot q hq
      · rw [hsettle, if_neg, hslot]
        rintro ⟨rfl, -⟩
        cases ho.symm.trans hslot
      · rw [hsettle, if_pos ⟨rfl, h.size ▸ hn⟩]
    · cases hr

/-- All definitions of a group that compile are ready. -/
theorem Workspace.Compiled.compileEach : {w w' : Workspace} → w.Compiled notes order → g ∈ order →
    (es : List (String × Definition)) → es ⊆ g.templates → (∀ e ∈ es, e.2.slot < notes.length) →
    (g.compileEach es).run w = ([], w') →
    w'.Compiled notes order ∧ w.Keeps w' ∧ ∀ e ∈ es, ∃ p, w'.outcome? e.2.slot = some (.ready p)
  | w, w', h, _, [], _, _, hr => by
      cases hr
      exact ⟨h, fun _ _ => id, nofun⟩
  | w, w', h, hg, (name, d) :: rest, he, hn, hr => by
      obtain ⟨hd, hrest⟩ := List.forall_mem_cons.mp hn
      have hrun : (g.compileEach ((name, d) :: rest)).run w =
          (if ((g.compiled name d).run w).1.isNone
            then name :: ((g.compileEach rest).run ((g.compiled name d).run w).2).1
            else ((g.compileEach rest).run ((g.compiled name d).run w).2).1,
            ((g.compileEach rest).run ((g.compiled name d).run w).2).2) := rfl
      rw [hrun, Prod.mk.injEq] at hr
      cases hp : (g.compiled name d).run w with
      | mk o w₁ =>
        rw [hp] at hr
        cases o with
        | none => cases hr.1
        | some p =>
          obtain ⟨h₁, hk₁, ho⟩ := h.compiled hg (he List.mem_cons_self) hd hp
          obtain ⟨h₂, hk₂, hall⟩ :=
            compileEach h₁ hg rest (List.subset_of_cons_subset he) hrest (Prod.ext hr.1 hr.2)
          refine ⟨h₂, fun slot outcome hs => hk₂ slot outcome (hk₁ slot outcome hs), ?_⟩
          exact List.forall_mem_cons.mpr ⟨⟨p, hk₂ _ _ ho⟩, hall⟩

/-- All definitions of groups that are compiled are ready. -/
theorem Compiles.compiled {gs : List Group} (hc : Compiles w gs w') (h : w.Compiled notes order)
    (hgs : gs ⊆ order) (hn : ∀ g ∈ gs, ∀ e ∈ g.templates, e.2.slot < notes.length) :
    w'.Compiled notes order ∧ w.Keeps w' ∧
      ∀ g ∈ gs, ∀ e ∈ g.templates, ∃ p, w'.outcome? e.2.slot = some (.ready p) := by
  induction hc with
  | nil w => exact ⟨h, fun _ _ => id, nofun⟩
  | @cons w w₁ w₂ g gs n hr _ ih =>
    obtain ⟨hg, hgs'⟩ := List.cons_subset.mp hgs
    obtain ⟨hn, hns⟩ := List.forall_mem_cons.mp hn
    have heach : (g.compileEach g.templates).run w = ([], w₁) := by
      unfold Group.compileAll at hr
      rw [StateT.run_bind] at hr
      generalize (g.compileEach g.templates).run w = l at hr ⊢
      obtain ⟨failed, v⟩ := l
      cases failed with
      | nil =>
        cases hr
        rfl
      | cons name failed => cases hr
    obtain ⟨h₁, hk₁, hall₁⟩ := h.compileEach hg _ (List.Subset.refl _) hn heach
    obtain ⟨h₂, hk₂, hall₂⟩ := ih h₁ hgs' hns
    refine ⟨h₂, fun slot outcome hs => hk₂ slot outcome (hk₁ slot outcome hs), ?_⟩
    refine List.forall_mem_cons.mpr ⟨fun e he => ?_, hall₂⟩
    obtain ⟨p, hp⟩ := hall₁ e he
    exact ⟨p, hk₂ _ _ hp⟩

/-- What a host built and compiled is ready. Programs are compiled in groups that have the definition of
that slot. -/
theorem Built.ready (hb : Built w gs) (ho : order ⊆ gs) (hc : Compiles w order w') :
    ∀ g ∈ order, ∀ name d, (name, d) ∈ g.templates → ∃ p, w'.outcome? d.slot = some (.ready p) ∧
      ∃ h ∈ order, ∃ e, (name, e) ∈ h.templates ∧ e.slot = d.slot ∧ e.formals = d.formals ∧
        e.source = d.source ∧ Program.compile h.directory name d.formals d.source = .ok p := by
  intro g hg name d hd
  obtain ⟨notes, hw, hall⟩ := hb.noted
  have hstart : w.Compiled notes order := ⟨hw.size, fun slot p hp => by
    rw [hw.outcome] at hp
    cases hp⟩
  obtain ⟨hw', -, hready⟩ := hc.compiled hstart (List.Subset.refl _) fun g hg e he =>
    (List.getElem?_eq_some_iff.mp (hall g (ho hg) e he)).1
  obtain ⟨p, hp⟩ := hready g hg _ hd
  obtain ⟨h, hh, ⟨name', e⟩, he, hslot, hcode⟩ := hw'.ready _ p hp
  have hnote := hall h (ho hh) _ he
  rw [hslot, hall g (ho hg) _ hd] at hnote
  obtain ⟨hname, hformals, hsource⟩ : name = name' ∧ d.formals = e.formals ∧ d.source = e.source := by
    simpa using hnote
  subst hname
  exact ⟨p, hp, h, hh, e, he, hslot, hformals.symm, hsource.symm, hformals ▸ hsource ▸ hcode⟩

/-! ## Rendering -/

/-- No template of a group and its imports computes the name of a template that it calls. -/
def Group.Direct (root : Group) : Prop :=
  ∀ g ∈ root.tree, ∀ e ∈ g.templates, ∀ t, Template.read e.1 e.2.formals e.2.source = .ok t →
    t.isDirect = true

/-- Each template of a group and its imports compiles in the group that defines it. Outcomes do not tell
that, as a definition has one outcome in all groups that share it. -/
def Group.CompilesAtHome (root : Group) : Prop :=
  ∀ g ∈ root.tree, ∀ e ∈ g.templates, (Program.compile g.directory e.1 e.2.formals e.2.source).isOk = true

/-- If groups that share a definition know the same templates, then those that compile do so at home. -/
theorem Built.compilesAtHome (hb : Built w gs) (ho : order ⊆ gs) (hc : Compiles w order w')
    (ht : root.tree ⊆ order) (hs : ∀ g ∈ order, ∀ h ∈ order, ∀ d ∈ g.templates, ∀ e ∈ h.templates,
      d.2.slot = e.2.slot → g.directory = h.directory) : root.CompilesAtHome := by
  intro g hg ⟨name, d⟩ hd
  obtain ⟨p, -, h, hh, e, he, hslot, -, -, hcode⟩ := hb.ready ho hc g (ht hg) name d hd
  rw [hs g (ht hg) h hh _ hd _ he hslot.symm, hcode]
  rfl

/-- Groups that were compiled before anything was rendered are checked. -/
theorem Built.checked (hb : Built w gs) (ho : order ⊆ gs) (hc : Compiles w order w')
    (ht : root.tree ⊆ order) (hu : root.Uniform) (hd : root.Direct) (hh : root.CompilesAtHome) :
    root.Checked w' where
  uniform := hu
  ready g hg name d hfind := by
    have he := Dict.mem_of_find? hfind
    obtain ⟨p, hp, h, -, e, -, -, -, -, hcode⟩ := hb.ready ho hc g (ht hg) name d he
    obtain ⟨t, hread, -, hcode, hname, hformals, hsource⟩ := Program.of_compile hcode
    -- at home the same tree was read, and no problems were found in it
    have hok := hh g hg _ he
    cases hhome : Program.compile g.directory name d.formals d.source with
    | error e =>
      rw [hhome] at hok
      cases hok
    | ok q =>
      obtain ⟨t', hread', hproblems, -, hname', hformals', hsource'⟩ := Program.of_compile hhome
      rw [hname', hformals', hsource'] at hread'
      have hsame : Template.read name d.formals d.source = .ok t := by
        rw [hname, hformals, hsource] at hread
        exact hread
      cases hsame.symm.trans hread'
      have hproper : t.Proper := .ofRead hread'
      exact ⟨p, hp, hformals, t, ⟨hproper, hcode, fun _ => hread⟩,
        Template.fits hproblems (hd g hg _ he t hread') hproper⟩

/-- Values that hold no templates at any depth. -/
def Value.Plain (v : Value) : Prop := v.Alike (fun _ _ => False) v

/-- An instance after some of its attributes were set and appended to, with plain values. -/
inductive Instance.Assigned (start : Instance) : Instance → Prop where
  | start : Assigned start start
  | set {i i' name v} : Assigned start i → Value.Plain v → i.set name v = .ok i' → Assigned start i'
  | append {i i' name v} : Assigned start i → Value.Plain v → i.append name v = .ok i' → Assigned start i'

theorem Attributes.append_alike {I : Instance → Instance → Prop} {a a' : Attributes} (h : Entries.Alike I a a')
    (name : String) {v v' : Value} (hv : v.Alike I v') :
    Entries.Alike I (Attributes.append name v a) (Attributes.append name v' a') := by
  have hitems {v v' : Value} (hv : v.Alike I v') : Items.Alike I (items v) (items v') := by
    cases hv with
    | sequence hvs => exact hvs
    | null => exact .cons .null .nil
    | bool b => exact .cons (.bool b) .nil
    | int n => exact .cons (.int n) .nil
    | float x => exact .cons (.float x) .nil
    | text s => exact .cons (.text s) .nil
    | object t s hp => exact .cons (.object t s hp) .nil
    | map he => exact .cons (.map he) .nil
    | template hi => exact .cons (.template hi) .nil
  have hl := h.lookup name
  unfold Attributes.append Dict.find?
  generalize a.lookup name = o, a'.lookup name = o' at hl ⊢
  cases hl with
  | none => exact h.insert name hv
  | some hheld => exact h.insert name (.sequence ((hitems hheld).append (hitems hv)))

/-- Only attributes change, and they stay plain. -/
theorem Instance.Assigned.plain {start i : Instance} (h : start.Assigned i) (hs : start.attributes = []) :
    i = { start with attributes := i.attributes } ∧
      Entries.Alike (fun _ _ => False) i.attributes i.attributes := by
  have hchecked {i i' : Instance} {name : String} {a : Attributes} (h : i.checked name a = .ok i')
      (hi : i = { start with attributes := i.attributes }) (ha : Entries.Alike (fun _ _ => False) a a) :
      i' = { start with attributes := i'.attributes } ∧
        Entries.Alike (fun _ _ => False) i'.attributes i'.attributes := by
    unfold Instance.checked at h
    split at h
    · cases h
      exact ⟨congrArg (fun j : Instance => { j with attributes := a }) hi, ha⟩
    · cases h
  induction h with
  | start => exact ⟨by cases start; rfl, hs ▸ .nil⟩
  | set _ hv h ih => exact hchecked h ih.1 (ih.2.insert _ hv)
  | append _ hv h ih => exact hchecked h ih.1 (Attributes.append_alike ih.2 _ hv)

/-- Checks are sound. When a host builds groups, compiles them and then renders a template that holds only
plain values, no problem is reported that the checks rule out, provided that each template compiles in
the group that defines it. -/
theorem checks_sound (hb : Built w gs) (ho : order ⊆ gs) (hc : Compiles w order w')
    (ht : root.tree ⊆ order) (hu : root.Uniform) (hd : root.Direct) (hh : root.CompilesAtHome) {name : String}
    (hn : root.contains name = true) :
    ∃ native program, (root.lookup name).run w' = (.ok (native, program), w') ∧
      ∀ bound, (Instance.ofProgram root native program none).Assigned bound →
        ∀ (i : Interpreter) (retain : Bool) (room : Option Nat),
          ∃ told, (i.final retain room bound w').workspace.delivered.toList = w'.delivered.toList ++ told ∧
            ∀ t ∈ told, t.2.kind ∉ Kind.ruledOut := by
  have hchecked := hb.checked ho hc ht hu hd hh
  obtain ⟨r, hrun, hknown, hfits⟩ := hchecked.resolved root.mem_tree ⟨name, false⟩ rfl
  obtain ⟨found, hfound⟩ := Option.isSome_iff_exists.mp hn
  obtain ⟨native, program, rfl, -⟩ := hknown found.2.formals (by
    rw [Group.find?_directory]
    exact congrArg (Option.map _) hfound)
  have hlookup : (root.lookup name).run w' = (.ok (native, program), w') := by
    have hresolve : (root.resolve name).run w' = (.ok (native, program), w') := hrun
    rw [Group.lookup, StateT.run_bind, hresolve]
    rfl
  refine ⟨native, program, hlookup, fun bound hbound i retain room => ?_⟩
  obtain ⟨hattributes, hplain⟩ := hbound.plain rfl
  obtain ⟨hnative, hfits⟩ := hfits native program rfl
  have hb : bound.Alike (Instance.Same root) bound := by
    rw [hattributes]
    exact .mk ⟨rfl, hnative, hfits⟩ (hplain.mono fun _ _ h => h.elim)
  exact invoke_safe hchecked ⟨i.depthLimit, bound.group, i.listener.getD bound.group.listener⟩
    (by rw [hattributes]; rfl) (i.depthLimit + 1) hb retain (.output room) 0

/-- A group with a page. -/
def innerPages : Group :=
  { Group.empty "inner" with templates := [("page", ⟨.ofNames ["title"], "<title>!", 0⟩)] }

/-- A group with a page around that of another group. -/
def outerPages : Group :=
  { Group.empty "outer" with
    templates := [("page", ⟨.ofNames ["title"], "<super.page(title)>", 1⟩)]
    imports := [innerPages] }

theorem checks_sound_page : ∃ w w', Compiles w [outerPages, innerPages] w' ∧
    ∃ native program, (outerPages.lookup "page").run w' = (.ok (native, program), w') ∧
      ∀ bound, (Instance.ofProgram outerPages native program none).Assigned bound →
        ∀ (i : Interpreter) (retain : Bool) (room : Option Nat),
          ∃ told, (i.final retain room bound w').workspace.delivered.toList = w'.delivered.toList ++ told ∧
            ∀ t ∈ told, t.2.kind ∉ Kind.ruledOut := by
  have hinner : ((Group.empty "inner").define "page" (.ofNames ["title"]) "<title>!").run .empty =
      (.ok innerPages, ⟨#[⟨none, 0⟩], #[[]], #[]⟩) := rfl
  have houter : (((Group.empty "outer").importing innerPages).define "page" (.ofNames ["title"])
      "<super.page(title)>").run ⟨#[⟨none, 0⟩], #[[]], #[]⟩ =
      (.ok outerPages, ⟨#[⟨none, 0⟩, ⟨none, 1⟩], #[[], []], #[]⟩) := rfl
  have hb : Built ⟨#[⟨none, 0⟩, ⟨none, 1⟩], #[[], []], #[]⟩ [outerPages,
      (Group.empty "outer").importing innerPages, .empty "outer", innerPages, .empty "inner"] := by
    refine .define (.importing (.create "outer" (.define (.create "inner" .start) ?_ hinner)) ?_ ?_) ?_ houter
      <;> simp
  have hc : Compiles ⟨#[⟨none, 0⟩, ⟨none, 1⟩], #[[], []], #[]⟩ [outerPages, innerPages] _ :=
    .cons (Prod.ext (by decide +kernel : _ = Except.ok 1) rfl)
      (.cons (Prod.ext (by decide +kernel : _ = Except.ok 1) rfl) (.nil _))
  have hu : outerPages.Uniform := by
    have hformals : ∀ g ∈ outerPages.tree, ∀ e ∈ g.templates, e.2.formals = .ofNames ["title"] := by decide
    intro g hg h hh name d e hd he
    exact (hformals g hg _ (Dict.mem_of_find? hd)).trans (hformals h hh _ (Dict.mem_of_find? he)).symm
  have hd : outerPages.Direct := by
    have hread : ∀ g ∈ outerPages.tree, ∀ e ∈ g.templates,
        (match Template.read e.1 e.2.formals e.2.source with
          | .ok t => t.isDirect
          | .error _ => true) = true := by
      decide +kernel
    intro g hg e he t ht
    have hdirect := hread g hg e he
    rw [ht] at hdirect
    exact hdirect
  have hh : outerPages.CompilesAtHome := by
    unfold Group.CompilesAtHome
    decide +kernel
  exact ⟨_, _, hc, checks_sound hb (by simp) hc (List.Subset.refl _) hu hd hh (by decide)⟩

end Stencil
