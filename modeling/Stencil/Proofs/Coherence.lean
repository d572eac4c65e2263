import Stencil.Proofs.Host
/-! What a host keeps of compiling is what compiling on the spot would give, as long as its imports come
in time. -/

namespace Stencil

variable {K : Group → Prop} {ledger ledger' : List Note}

/-! ## Instances -/

mutual

/-- A value is alike to itself among groups of a kind if all that it holds are of that kind. -/
theorem Value.alike_among : (v : Value) → v.Alike (Instance.Among K) v ↔ ∀ g ∈ v.groups, K g
  | .null | .bool _ | .int _ | .float _ | .text _ => by
      refine ⟨fun _ => List.forall_mem_nil _, fun _ => ?_⟩
      constructor
  | .object _ properties _ => by
      rw [Value.groups, ← Entries.alike_among properties]
      exact ⟨fun | .object _ _ h => h, .object _ _⟩
  | .sequence items => by
      rw [Value.groups, ← Items.alike_among items]
      exact ⟨fun | .sequence h => h, .sequence⟩
  | .map entries => by
      rw [Value.groups, ← Entries.alike_among entries]
      exact ⟨fun | .map h => h, .map⟩
  | .template bound => by
      rw [Value.groups, ← Instance.alike_among bound]
      exact ⟨fun | .template h => h, .template⟩

theorem Items.alike_among : (vs : List Value) →
    Items.Alike (Instance.Among K) vs vs ↔ ∀ g ∈ Items.groups vs, K g
  | [] => ⟨fun _ => List.forall_mem_nil _, fun _ => .nil⟩
  | v :: vs => by
      rw [Items.groups, List.forall_mem_append, ← Value.alike_among v, ← Items.alike_among vs]
      exact ⟨fun | .cons h hs => ⟨h, hs⟩, fun ⟨h, hs⟩ => .cons h hs⟩

theorem Entries.alike_among : (es : List (String × Value)) →
    Entries.Alike (Instance.Among K) es es ↔ ∀ g ∈ Entries.groups es, K g
  | [] => ⟨fun _ => List.forall_mem_nil _, fun _ => .nil⟩
  | (key, v) :: es => by
      rw [Entries.groups, List.forall_mem_append, ← Value.alike_among v, ← Entries.alike_among es]
      exact ⟨fun | .cons _ h hs => ⟨h, hs⟩, fun ⟨h, hs⟩ => .cons key h hs⟩

theorem Instance.alike_among : (i : Instance) → i.Alike (Instance.Among K) i ↔ ∀ g ∈ i.groups, K g
  | ⟨group, native, program, attributes, enclosing⟩ => by
      rw [Instance.groups, List.forall_mem_append, ← Entries.alike_among attributes]
      exact ⟨fun | .mk h hs => ⟨h.2, hs⟩, fun ⟨h, hs⟩ => .mk ⟨rfl, h⟩ hs⟩

end

/-! ## Attributes -/

variable {I : Instance → Instance → Prop}

theorem Entries.Alike.ofList {es es' : List (String × Value)} (h : Entries.Alike I es es') :
    Entries.Alike I (Dict.ofList es) (Dict.ofList es') := by
  have hfold {ds ds' : List (String × Value)} (hd : Entries.Alike I ds ds') :
      Entries.Alike I (es.foldl (fun d (key, value) => Dict.insert key value d) ds)
        (es'.foldl (fun d (key, value) => Dict.insert key value d) ds') := by
    induction es generalizing es' ds ds' with
    | nil =>
      cases h
      exact hd
    | cons e es ih =>
      cases h with
      | cons key hv hes => exact ih hes (hd.insert key hv)
  exact hfold .nil

variable {f f' : String → Option Instance}

mutual

/-- Values are alike if the handles in them stand for alike instances. -/
theorem Given.value_alike : (v : Given) → (∀ id ∈ v.handles, Option.Rel (Instance.Alike I) (f id) (f' id)) →
    (v.value f).Alike I (v.value f')
  | .null, _ => .null
  | .bool b, _ => .bool b
  | .int n, _ => .int n
  | .float x, _ => .float x
  | .text s, _ => .text s
  | .object t properties s, h => .object t s (.ofList (Given.entries_alike properties h))
  | .sequence items, h => .sequence (Given.items_alike items h)
  | .map entries, h => .map (.ofList (Given.entries_alike entries h))
  | .held id, h => by
      have hi := h id List.mem_cons_self
      rw [Given.value, Given.value]
      generalize f id = o, f' id = o' at hi
      cases hi with
      | none => exact .null
      | some hi => exact .template hi

theorem Given.items_alike : (vs : List Given) →
    (∀ id ∈ Given.itemsHandles vs, Option.Rel (Instance.Alike I) (f id) (f' id)) →
    Items.Alike I (Given.itemsValue f vs) (Given.itemsValue f' vs)
  | [], _ => .nil
  | v :: vs, h =>
      have h := List.forall_mem_append.mp h
      .cons (v.value_alike h.1) (Given.items_alike vs h.2)

theorem Given.entries_alike : (es : List (String × Given)) →
    (∀ id ∈ Given.entriesHandles es, Option.Rel (Instance.Alike I) (f id) (f' id)) →
    Entries.Alike I (Given.entriesValue f es) (Given.entriesValue f' es)
  | [], _ => .nil
  | (key, v) :: es, h =>
      have h := List.forall_mem_append.mp h
      .cons key (v.value_alike h.1) (Given.entries_alike es h.2)

end

theorem rel_self {α : Type} {R : α → α → Prop} {o : Option α} (h : ∀ a, o = some a → R a a) : Option.Rel R o o := by
  cases o with
  | none => exact .none
  | some a => exact .some (h a rfl)

/-- A value depends on the handles in it. -/
theorem Given.value_congr (v : Given) (h : ∀ id ∈ v.handles, f id = f' id) : v.value f = v.value f' :=
  (v.value_alike fun id hid => h id hid ▸ rel_self fun i _ => .refl (fun _ => rfl) i).eq

theorem Instance.Alike.checked {i i' : Instance} (h : i.Alike I i) {name : String} {a : Attributes}
    (ha : Entries.Alike I a a) (hi : i.checked name a = .ok i') : i'.Alike I i' := by
  unfold Instance.checked at hi
  split at hi
  · cases hi
    cases h with
    | mk hb _ => exact .mk hb ha
  · cases hi

/-! ## Asking -/

section

variable {groups groups' : String → Option Group} {instances instances' : String → Option Instance}

/-- What is asked depends on the handles that are used. -/
theorem Observation.ask_congr (o : Observation)
    (h : ∀ id ∈ o.handles, groups id = groups' id ∧ instances id = instances' id) :
    o.ask groups instances = o.ask groups' instances' := by
  cases o with
  | set id name v | append id name v =>
    obtain ⟨hid, hv⟩ := List.forall_mem_cons.mp h
    rw [ask, ask, hid.2, v.value_congr fun id hid => (hv id hid).2]
  | _ =>
    have hid := h _ List.mem_cons_self
    rw [ask, ask]
    first
    | rw [hid.1]
    | rw [hid.2]

variable (hK : ∀ g, K g → g.Recorded ledger) (hK' : ∀ g, K g → g.Recorded ledger')

theorem Steady.asking {α : Type} {held : Option α} {f : α → StateM Workspace (Answer × Option Instance)}
    {P : Answer × Option Instance → Prop} (hf : ∀ a, held = some a → Steady ledger ledger' P (f a))
    (hn : P (.unknown, none)) : Steady ledger ledger' P (Observation.ask.asking held f) := by
  cases held with
  | none => exact .pure hn
  | some a => exact hf a rfl

include hK hK'

/-- Hosts are answered the same in two workspaces, and get instances that hold groups of the kind. -/
theorem Steady.ask (o : Observation)
    (hg : ∀ id ∈ o.handles, ∀ g, groups id = some g → ∀ x ∈ g.tree, K x)
    (hi : ∀ id ∈ o.handles, ∀ i, instances id = some i → ∀ x ∈ i.groups, K x) :
    Steady ledger ledger' (fun r => ∀ i, r.2 = some i → ∀ x ∈ i.groups, K x) (o.ask groups instances) := by
  cases o with
  | lookup group name | disassemble group name =>
    refine .asking (fun g h => ?_) nofun
    refine (Steady.lookup hK hK' (hg group List.mem_cons_self g h) name).bind fun r _ => ?_
    cases r <;> exact .pure nofun
  | compileAll group =>
    refine .asking (fun g h => ?_) nofun
    refine (Steady.compileAll hK hK' (hg group List.mem_cons_self g h)).bind fun r _ => ?_
    cases r <;> exact .pure nofun
  | names group | sourceOf group name => exact .asking (fun g _ => .pure nofun) nofun
  | instantiate group id name =>
    refine .asking (fun g h => ?_) nofun
    have hg := hg group List.mem_cons_self g h
    refine (Steady.lookup hK hK' hg name).bind fun r hr => ?_
    cases r with
    | error e => exact .pure nofun
    | ok found =>
      refine .pure fun i h => ?_
      cases h
      exact (Instance.alike_among _).mp (.mk (Instance.among_self.mpr ⟨hg, hr _ _ rfl⟩) .nil)
  | improvise group id source =>
    refine .asking (fun g h => ?_) nofun
    have hg := hg group List.mem_cons_self g h
    refine (Steady.compileSource g source).bind fun r _ => ?_
    cases r with
    | error e => exact .pure nofun
    | ok program =>
      refine .pure fun i h => ?_
      cases h
      exact (Instance.alike_among _).mp (.mk (Instance.among_self.mpr ⟨hg, hg⟩) .nil)
  | set id name v | append id name v =>
    refine .asking (fun i h => ?_) nofun
    obtain ⟨hid, hv⟩ := List.forall_mem_cons.mp hi
    have hself := (Instance.alike_among i).mpr (hid i h)
    have hvalue := v.value_alike fun id hid => rel_self fun i h => (Instance.alike_among i).mpr (hv id hid i h)
    split
    · rename_i hset
      refine .pure fun i h => ?_
      cases h
      refine (Instance.alike_among _).mp (hself.checked ?_ hset)
      cases hself with
      | mk _ ha =>
        first
        | exact ha.insert name hvalue
        | exact Attributes.append_alike ha name hvalue
    · exact .pure nofun
  | render id interpreter room =>
    refine .asking (fun i h => ?_) nofun
    have hself := (Instance.alike_among i).mpr (hi id List.mem_cons_self i h)
    exact (Steady.renderTo hK hK' hself interpreter room).bind fun _ _ => .pure nofun

end

/-! ## Hosts -/

/-- The definitions of all groups that a host holds are noted as they compile in them, and its workspace
agrees with that. -/
structure Host.Coherent (h : Host) (ledger : List Note) : Prop where
  agrees : h.workspace.Agrees ledger
  groups : ∀ id g, h.group? id = some g → ∀ x ∈ g.tree, x.Recorded ledger
  instances : ∀ id i, h.instance? id = some i → ∀ x ∈ i.groups, x.Recorded ledger

theorem Group.recorded_tree {g : Group} : (∀ x ∈ g.tree, x.Recorded ledger) ↔
    g.Recorded ledger ∧ ∀ x ∈ Group.treeIn g.imports, x.Recorded ledger := by
  rw [g.tree_eq, List.forall_mem_cons]

/-- A group of which only a listener or a renderer changed is noted as before. -/
theorem Group.Recorded.of_eq {g g' : Group} (h : g.Recorded ledger) (ht : g.templates = g'.templates)
    (hi : g.imports = g'.imports) : g'.Recorded ledger := by
  unfold Group.Recorded
  rw [← ht, ← Group.directory_eq ht hi]
  exact h

namespace Host

variable {h : Host} {ledger : List Note}

theorem isTimely_iff {id : String} {g other : Group} : h.isTimely id g other = true ↔
    ∀ slot ∈ g.mendedBy other, h.workspace.outcome? slot = none ∧
      ∀ x ∈ h.beside id ++ Group.treeIn (g.importing other).imports, ∀ e ∈ x.templates, e.2.slot ≠ slot := by
  simp only [isTimely, List.all_eq_true, Bool.and_eq_true, Option.isNone_iff_eq_none, bne_iff_ne]

/-- Groups under other handles are beside a handle. -/
theorem mem_beside_of_group {id other : String} {g x : Group} (hg : h.group? other = some g) (ho : other ≠ id)
    (hx : x ∈ g.tree) : x ∈ h.beside id := by
  refine List.mem_append_left _ (List.mem_flatMap.mpr ⟨(other, g), List.mem_filter.mpr ⟨?_, ?_⟩, hx⟩)
  · exact Handles.mem_of_lookup hg
  · exact bne_iff_ne.mpr ho

theorem mem_beside_of_instance {id other : String} {i : Instance} {x : Group} (hi : h.instance? other = some i)
    (hx : x ∈ i.groups) : x ∈ h.beside id :=
  List.mem_append_right _ (List.mem_flatMap.mpr ⟨(other, i), Handles.mem_of_lookup hi, hx⟩)

namespace Coherent

/-- A host that holds a group more, with what is noted of it. -/
theorem update_group (hc : h.Coherent ledger) {ledger' : List Note} {w : Workspace} (hw : w.Agrees ledger')
    (id : String) {made : Option Group} (hm : ∀ g, made = some g → ∀ x ∈ g.tree, x.Recorded ledger')
    (hkeep : ∀ x ∈ h.beside id, x.Recorded ledger → x.Recorded ledger') (hsame : made = none → ledger' = ledger) :
    Host.Coherent ⟨Handles.update id made h.groups, h.instances, w⟩ ledger' where
  agrees := hw
  groups other g hg := by
    rcases Handles.of_lookup_update hg with ⟨hmade, -⟩ | ⟨hg, hne⟩
    · exact hm g hmade
    · rcases hne with hnone | hne
      · exact hsame hnone ▸ hc.groups other g hg
      · exact fun x hx => hkeep x (mem_beside_of_group hg hne hx) (hc.groups other g hg x hx)
  instances other i hi x hx := hkeep x (mem_beside_of_instance hi hx) (hc.instances other i hi x hx)

/-- A host that holds an instance more. -/
theorem update_instance (hc : h.Coherent ledger) {w : Workspace} (hw : w.Agrees ledger) (id : String)
    {made : Option Instance} (hm : ∀ i, made = some i → ∀ x ∈ i.groups, x.Recorded ledger) :
    Host.Coherent ⟨h.groups, Handles.update id made h.instances, w⟩ ledger where
  agrees := hw
  groups := hc.groups
  instances other i hi := by
    rcases Handles.of_lookup_update hi with ⟨hmade, -⟩ | ⟨hi, -⟩
    · exact hm i hmade
    · exact hc.instances other i hi

/-- Asking keeps a host coherent. -/
theorem observe (hc : h.Coherent ledger) (o : Observation) : (h.observe o).2.Coherent ledger := by
  obtain ⟨⟨answer, made⟩, v, -, hv, -, hmade, ha, -⟩ := Steady.ask (fun _ hg => hg) (fun _ hg => hg) o
    (fun id _ g hg => hc.groups id g hg) (fun id _ i hi => hc.instances id i hi) _ _ hc.agrees hc.agrees
  rw [observe_run hv]
  exact hc.update_instance ha o.target hmade

/-- What is noted when a group is made or changed: the new group, and all others as before. -/
structure Notes (h : Host) (ledger : List Note) (b : Building) (made : Except Answer Group) (w : Workspace)
    (ledger' : List Note) : Prop where
  agrees : w.Agrees ledger'
  recorded : ∀ g, made.toOption = some g → ∀ x ∈ g.tree, x.Recorded ledger'
  keeps : ∀ x ∈ h.beside b.target, x.Recorded ledger → x.Recorded ledger'
  same : made.toOption = none → ledger' = ledger

/-- Nothing new is noted for a group whose definitions are noted. -/
theorem notes_same (hc : h.Coherent ledger) (b : Building) {made : Except Answer Group}
    (hm : ∀ g, made.toOption = some g → ∀ x ∈ g.tree, x.Recorded ledger) : Notes h ledger b made h.workspace ledger :=
  ⟨hc.agrees, hm, fun _ _ hx => hx, fun _ => rfl⟩

/-- A definition is noted, and the others of its group once more. -/
theorem notes_define (hc : h.Coherent ledger) {group name source : String} {formals : Formals} {g : Group}
    (hg : h.group? group = some g) : ∃ ledger',
      Notes h ledger (.define group name formals source)
        (((g.define name formals source).run h.workspace).1.mapError .refused)
        ((g.define name formals source).run h.workspace).2 ledger' := by
  obtain ⟨hown, himports⟩ := Group.recorded_tree.mp (hc.groups group g hg)
  rw [Group.define_run]
  split
  · exact ⟨ledger, hc.notes_same _ nofun⟩
  · obtain ⟨more, hw, hd⟩ := hc.agrees.define name formals source hown rfl rfl
    refine ⟨ledger ++ more, hw, fun g' h => ?_, fun x _ hx => hx.append more, nofun⟩
    cases h
    exact Group.recorded_tree.mpr ⟨hd, fun x hx => (himports x hx).append more⟩

/-- An import that comes in time is noted. -/
theorem notes_importing (hc : h.Coherent ledger) {group other : String} {g k : Group}
    (hg : h.group? group = some g) (hk : h.group? other = some k) (ht : h.isTimely group g k = true) :
    ∃ ledger', Notes h ledger (.importing group other) (.ok (g.importing k)) h.workspace ledger' := by
  have ht := isTimely_iff.mp ht
  have hkeep {x : Group} (hx : x ∈ h.beside group ++ Group.treeIn (g.importing k).imports)
      (hr : x.Recorded ledger) :
      x.Recorded (revised ledger (g.importing k).directory (g.mendedBy k)) :=
    Recorded.revised hr fun e he hs => (ht _ hs).2 x hx e he rfl
  refine ⟨_, hc.agrees.revised _ fun slot hs => (ht slot hs).1, fun g' h => ?_,
    fun x hx hr => hkeep (List.mem_append_left _ hx) hr, nofun⟩
  cases h
  obtain ⟨hown, himports⟩ := Group.recorded_tree.mp (hc.groups group g hg)
  refine Group.recorded_tree.mpr ⟨hown.importing k, fun x hx => hkeep (List.mem_append_right _ hx) ?_⟩
  rw [show (g.importing k).imports = g.imports ++ [k] from rfl, Group.treeIn_append] at hx
  rcases List.mem_append.mp hx with hx | hx
  · exact himports x hx
  · rw [Group.treeIn, Group.treeIn, List.append_nil] at hx
    exact hc.groups other k hk x hx

/-- Nothing new is noted where only a listener or a renderer changes. -/
theorem notes_change (hc : h.Coherent ledger) (b : Building) (group : String) {f : Group → Group}
    (ht : ∀ g, g.templates = (f g).templates) (hi : ∀ g, g.imports = (f g).imports) :
    Notes h ledger b (Building.change f (h.group? group)) h.workspace ledger := by
  cases hg : h.group? group with
  | none => exact hc.notes_same _ nofun
  | some g =>
    refine hc.notes_same _ fun g' h => ?_
    cases h
    obtain ⟨hown, himports⟩ := Group.recorded_tree.mp (hc.groups group g hg)
    exact Group.recorded_tree.mpr ⟨hown.of_eq (ht g) (hi g), hi g ▸ himports⟩

theorem notes (hc : h.Coherent ledger) (b : Building) (ha : h.allows (.build b) = true) : ∃ ledger',
    Notes h ledger b ((b.make h.group?).run h.workspace).1 ((b.make h.group?).run h.workspace).2 ledger' := by
  cases b with
  | create id name =>
    refine ⟨ledger, hc.notes_same _ fun g h => ?_⟩
    cases h
    exact Group.recorded_tree.mpr ⟨nofun, nofun⟩
  | define group name formals source =>
    rw [Building.make]
    cases hg : h.group? group with
    | none => exact ⟨ledger, hc.notes_same _ nofun⟩
    | some g => exact hc.notes_define hg
  | importing group other =>
    rw [allows] at ha
    rw [Building.make]
    cases hk : h.group? other with
    | none => exact ⟨ledger, hc.notes_same _ nofun⟩
    | some k =>
      cases hg : h.group? group with
      | none => exact ⟨ledger, hc.notes_same _ nofun⟩
      | some g =>
        rw [hg, hk] at ha
        exact hc.notes_importing hg hk ha
  | clone group id => exact ⟨ledger, hc.notes_change _ group (fun _ => rfl) fun _ => rfl⟩
  | listening group listener => exact ⟨ledger, hc.notes_change _ group (fun _ => rfl) fun _ => rfl⟩
  | registering group kind renderer => exact ⟨ledger, hc.notes_change _ group (fun _ => rfl) fun _ => rfl⟩

/-- Building keeps a host coherent, if imports come in time. -/
theorem build (hc : h.Coherent ledger) (b : Building) (ha : h.allows (.build b) = true) :
    ∃ ledger', (h.build b).2.Coherent ledger' := by
  obtain ⟨ledger', hn⟩ := hc.notes b ha
  exact ⟨ledger', hc.update_group hn.agrees b.target hn.recorded hn.keeps hn.same⟩

theorem perform (hc : h.Coherent ledger) (a : Action) (ha : h.allows a = true) :
    ∃ ledger', (h.perform a).2.Coherent ledger' := by
  cases a with
  | build b => exact hc.build b ha
  | observe o => exact ⟨ledger, hc.observe o⟩

/-- A host stays coherent over a history, if imports come in time. -/
theorem after (hc : h.Coherent ledger) (as : List Action) (ha : h.allowsAll as = true) :
    ∃ ledger', (h.after as).Coherent ledger' := by
  induction as generalizing h ledger with
  | nil => exact ⟨ledger, hc⟩
  | cons a as ih =>
    rw [allowsAll, Bool.and_eq_true] at ha
    obtain ⟨ledger', hc⟩ := hc.perform a ha.1
    exact ih hc ha.2

end Coherent

theorem allowsAll_append (h : Host) (as bs : List Action) :
    h.allowsAll (as ++ bs) = (h.allowsAll as && (h.after as).allowsAll bs) := by
  induction as generalizing h with
  | nil => rfl
  | cons a as ih => rw [List.cons_append, allowsAll, allowsAll, ih, Bool.and_assoc, after]

/-- A host that holds nothing is coherent. -/
theorem empty_coherent : Host.empty.Coherent [] where
  agrees := ⟨rfl, nofun⟩
  groups := nofun
  instances := nofun

end Host

/-! ## Looking up -/

/-- The answer of a host that looks up a template. -/
def Answer.ofLookup : Except GroupError (Group × Program) → Answer
  | .ok (_, program) => .template program
  | .error e => .refused e

theorem Group.lookup_run {g : Group} {name : String} {w w' : Workspace} {r : Except Unresolved (Group × Program)}
    (h : (resolveFound name (g.find? name)).run w = (r, w')) :
    (g.lookup name).run w = (r.mapError (g.unresolvedError name), w') := by
  rw [lookup, resolve, StateT.run_bind, h]
  cases r <;> rfl

/-- The answer when everything is compiled on the spot. -/
def Group.freshAnswer (g : Group) (name : String) : Answer :=
  .ofLookup ((freshly name (g.find? name)).mapError (g.unresolvedError name))

/-- Looking up a definition of the group itself. -/
theorem Group.lookup_own {g : Group} {name : String} {d : Definition} {w w' : Workspace} {o : Option Program}
    (hd : Dict.find? g.templates name = some d) (h : (g.compiled name d).run w = (o, w')) :
    (g.lookup name).run w = ((g.offer o).mapError (g.unresolvedError name), w') := by
  refine lookup_run ?_
  have hfind : g.find? name = some (g, d) := by
    cases g
    rw [find?, show Dict.find? _ name = some d from hd]
  rw [hfind]
  exact resolveFound_run h

namespace Host

variable {h : Host} {ledger : List Note} {id name : String} {g : Group}

theorem observe_lookup {h : Host} {r : Except GroupError (Group × Program)} {w : Workspace}
    (hg : h.group? id = some g) (hr : (g.lookup name).run h.workspace = (r, w)) :
    h.observe (.lookup id name) = (.ofLookup r, ⟨h.groups, h.instances, w⟩) := by
  have hask : ((Observation.lookup id name).ask h.group? h.instance?).run h.workspace = ((.ofLookup r, none), w) := by
    rw [Observation.ask, hg, Observation.ask.asking, StateT.run_bind, hr]
    cases r <;> rfl
  exact observe_run hask

/-- A coherent host is told what compiling on the spot gives. -/
theorem Coherent.lookup_answer (hc : h.Coherent ledger) (hg : h.group? id = some g) (name : String) :
    (h.observe (.lookup id name)).1 = g.freshAnswer name := by
  obtain ⟨w, hw, -⟩ := hc.agrees.resolveFound name (g.find? name) fun native d hf => by
    obtain ⟨hn, hd⟩ := Group.mem_of_find? g hf
    exact ⟨hc.groups id g hg native hn, Dict.mem_of_find? hd⟩
  rw [observe_lookup hg (Group.lookup_run hw)]
  rfl

/-- An import keeps the workspace. -/
theorem build_importing {other : String} {k : Group} (hg : h.group? id = some g) (hk : h.group? other = some k) :
    h.build (.importing id other) =
      (.done, ⟨Handles.put id (g.importing k) h.groups, h.instances, h.workspace⟩) := by
  rw [Host.build, Building.make, hk, hg]
  rfl

end Host

end Stencil
