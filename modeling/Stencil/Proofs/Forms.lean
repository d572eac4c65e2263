import Stencil.Proofs.Coherence
import Stencil.Proofs.Rearranging
import Stencil.Proofs.Renditions
/-! Hosts that hold a group in two versions. Whether a call passes its arguments in order or by name, and whichever
options of a tag come first, a host that makes instances of the templates, gives them values and renders them is
answered the same. -/

namespace Stencil

open Rendering

/-! ## Names -/

variable {root g g' : Group}

mutual

theorem Group.Rephrases.allNames_eq : {g g' : Group} → root.Rephrases g g' → g.allNames = g'.allNames
  | ⟨_, _, _, _, _⟩, ⟨_, _, _, _, _⟩, .mk ht hi _ => by
      rw [Group.allNames, Group.allNames, hi.allNamesIn_eq]
      exact congrArg (· ++ _) (List.forall₂_eq_eq_eq ▸ List.forall₂_map_left_iff.mpr
        (List.forall₂_map_right_iff.mpr (ht.imp fun _ _ he => he.1)))

theorem Group.RephrasesAll.allNamesIn_eq : {gs gs' : List Group} → root.RephrasesAll gs gs' →
    Group.allNamesIn gs = Group.allNamesIn gs'
  | _, _, .nil => rfl
  | _, _, .cons hg hgs => by rw [Group.allNamesIn, Group.allNamesIn, hg.allNames_eq, hgs.allNamesIn_eq]

end

theorem Group.Rephrases.unresolvedError_eq (h : root.Rephrases g g') (name : String) (e : Unresolved) :
    g.unresolvedError name e = g'.unresolvedError name e := by
  have hnames : g.visibleNames = g'.visibleNames := by rw [Group.visibleNames, Group.visibleNames, h.allNames_eq]
  cases e with
  | undefined => rw [Group.unresolvedError, Group.unresolvedError, hnames]
  | compileFailed => rfl

/-! ## Instances -/

/-- Instances of a template in two versions, which belong to no other instances. -/
structure Instance.Rephrased (root : Group) (i i' : Instance) : Prop where
  native : root.Rephrases i.native i'.native
  program : i.program.Rephrased (root.naming i.native) i'.program
  enclosing : i.enclosing = none
  enclosing' : i'.enclosing = none

section

variable {I : Instance → Instance → Prop} {K K' : Group → Prop}

/-- Related instances whose templates are defined in groups of a kind each. -/
abbrev Instance.Within (I : Instance → Instance → Prop) (K K' : Group → Prop) (i i' : Instance) : Prop :=
  I i i' ∧ (∀ g ∈ i.native.tree, K g) ∧ ∀ g ∈ i'.native.tree, K' g

mutual

theorem Value.Alike.within : {v v' : Value} → v.Alike I v' → (∀ g ∈ v.groups, K g) → (∀ g ∈ v'.groups, K' g) →
    v.Alike (Instance.Within I K K') v'
  | _, _, .null, _, _ => .null
  | _, _, .bool b, _, _ => .bool b
  | _, _, .int n, _, _ => .int n
  | _, _, .float x, _, _ => .float x
  | _, _, .text s, _, _ => .text s
  | _, _, .object t s hp, h, h' => .object t s (hp.within h h')
  | _, _, .sequence hv, h, h' => .sequence (hv.within h h')
  | _, _, .map he, h, h' => .map (he.within h h')
  | _, _, .template hi, h, h' => .template (hi.within h h')

theorem Items.Alike.within : {vs vs' : List Value} → Items.Alike I vs vs' → (∀ g ∈ Items.groups vs, K g) →
    (∀ g ∈ Items.groups vs', K' g) → Items.Alike (Instance.Within I K K') vs vs'
  | _, _, .nil, _, _ => .nil
  | _, _, .cons hv hvs, h, h' =>
      have h := List.forall_mem_append.mp h
      have h' := List.forall_mem_append.mp h'
      .cons (hv.within h.1 h'.1) (hvs.within h.2 h'.2)

theorem Entries.Alike.within : {es es' : List (String × Value)} → Entries.Alike I es es' →
    (∀ g ∈ Entries.groups es, K g) → (∀ g ∈ Entries.groups es', K' g) → Entries.Alike (Instance.Within I K K') es es'
  | _, _, .nil, _, _ => .nil
  | _, _, .cons key hv hes, h, h' =>
      have h := List.forall_mem_append.mp h
      have h' := List.forall_mem_append.mp h'
      .cons key (hv.within h.1 h'.1) (hes.within h.2 h'.2)

theorem Instance.Alike.within : {i i' : Instance} → i.Alike I i' → (∀ g ∈ i.groups, K g) → (∀ g ∈ i'.groups, K' g) →
    i.Alike (Instance.Within I K K') i'
  | ⟨_, _, _, _, _⟩, ⟨_, _, _, _, _⟩, .mk hb ha, h, h' => by
      obtain ⟨hgroups, hvalues⟩ := List.forall_mem_append.mp h
      obtain ⟨hgroups', hvalues'⟩ := List.forall_mem_append.mp h'
      exact .mk ⟨hb, (List.forall_mem_append.mp hgroups).2, (List.forall_mem_append.mp hgroups').2⟩
        (ha.within hvalues hvalues')

end

end

/-! ## Hosts -/

/-- A program has the name of its definition. -/
theorem Group.name_of_freshly {name : String} {found : Option (Group × Definition)} {native : Group}
    {program : Program} (h : freshly name found = .ok (native, program)) : program.name = name := by
  cases found with
  | none => cases h
  | some f =>
    obtain ⟨group, d⟩ := f
    rw [freshly] at h
    cases ho : Program.of? group.directory name d.formals d.source with
    | none =>
      rw [ho] at h
      cases h
    | some p =>
      rw [ho] at h
      cases h
      obtain ⟨-, -, -, -, hn, -, -⟩ := Program.of_compile (Program.of?_eq_some.mp ho)
      exact hn

/-- Instances that hosts hold of the templates of a group in two versions, given alike values. -/
structure Instance.Paired (g g' : Group) (i i' : Instance) : Prop where
  group : i.group = g
  group' : i'.group = g'
  name : i.name = i'.name
  alike : i.Alike (Instance.Rephrased g) i'

namespace Instance.Paired

variable {i i' : Instance}

theorem accepts (h : i.Paired g g' i') (name : String) :
    i.program.formals.accepts name = i'.program.formals.accepts name := by
  cases h.alike with
  | mk hb _ => exact hb.program.formals.accepts name

theorem ofProgram {native native' : Group} {p p' : Program} (hn : g.Rephrases native native')
    (hp : p.Rephrased (g.naming native) p') (hname : p.name = p'.name) :
    (Instance.ofProgram g native p none).Paired g g' (.ofProgram g' native' p' none) :=
  ⟨rfl, rfl, hname, .mk ⟨hn, hp, rfl, rfl⟩ .nil⟩

/-- Alike attributes are accepted by both or by none. -/
theorem checked (h : i.Paired g g' i') (name : String) {a a' : Attributes}
    (ha : Entries.Alike (Instance.Rephrased g) a a') :
    (∃ j j', i.checked name a = .ok j ∧ i'.checked name a' = .ok j' ∧ j.Paired g g' j') ∨
      ∃ e, i.checked name a = .error e ∧ i'.checked name a' = .error e := by
  rw [Instance.checked, Instance.checked, h.accepts name, h.name]
  cases i'.program.formals.accepts name with
  | false => exact .inr ⟨_, rfl, rfl⟩
  | true =>
    refine .inl ⟨_, _, rfl, rfl, h.group, h.group', h.name, ?_⟩
    cases h.alike with
    | mk hb _ => exact .mk hb ha

end Instance.Paired

namespace Host

variable {h h' : Host} {ledger ledger' : List Note} {own : String → Bool} {id : String}

/-- Rendering paired instances writes the same. -/
theorem renders_paired (hc : h.Coherent ledger) (hc' : h'.Coherent ledger') (hr : g.Rephrases g g') {x x' : String}
    {i i' : Instance} (hi : h.instance? x = some i) (hi' : h'.instance? x' = some i') (hp : i.Paired g g' i')
    (interpreter : Interpreter) (room : Option Nat) :
    ((interpreter.renderTo room i).run h.workspace).1 = ((interpreter.renderTo room i').run h'.workspace).1 := by
  obtain ⟨rfl, rfl, -, halike⟩ := hp
  have hgroups := hc.instances x i hi
  have hgroups' := hc'.instances x' i' hi'
  have hroot (j : Instance) : j.group.tree ⊆ j.groups := by
    cases j
    exact List.subset_append_of_subset_left _ (List.subset_append_left _ _)
  let E : Edition := {
    settings := ⟨interpreter.depthLimit, i.group, interpreter.listener.getD i.group.listener⟩
    settings' := ⟨interpreter.depthLimit, i'.group, interpreter.listener.getD i'.group.listener⟩
    ledger, ledger'
    groups := hr
    recorded := fun g hg => hgroups g (hroot i hg)
    recorded' := fun g hg => hgroups' g (hroot i' hg)
    agrees := ⟨_, hc.agrees⟩
    agrees' := ⟨_, hc'.agrees⟩ }
  have hversion : i.Alike (E.Version []) i' := by
    refine (halike.within hgroups hgroups').mono fun j j' hj => ?_
    obtain ⟨⟨hn, hp, he, he'⟩, hk, hk'⟩ := hj
    exact ⟨hn, hk, hk', hp, by rw [he, he']; exact .none⟩
  have hlined : E.Lined (Frames.empty interpreter.retain) (Frames.empty interpreter.retain) (chain none) (chain none) :=
    ⟨.nil, List.forall_mem_nil _, List.forall_mem_nil _⟩
  obtain ⟨texts, hx, hy⟩ := E.invokes (interpreter.depthLimit + 1) rfl hlined hversion
  obtain ⟨k, hk, -, hs⟩ := hx ⟨.empty interpreter.retain, [], .output room, 0, h.workspace⟩
    ⟨hc.agrees, List.forall_mem_nil _, List.forall_mem_nil _⟩
  obtain ⟨k', hk', -, hs'⟩ := hy ⟨.empty interpreter.retain, [], .output room, 0, h'.workspace⟩
    ⟨hc'.agrees, List.forall_mem_nil _, List.forall_mem_nil _⟩
  have hsink : (interpreter.final interpreter.retain room i h.workspace).sink =
      (interpreter.final interpreter.retain room i' h'.workspace).sink :=
    (congrArg (fun c : Course Unit => c.machine.sink) hk).trans
      (hs.trans (hs'.symm.trans (congrArg (fun c : Course Unit => c.machine.sink) hk').symm))
  exact congrArg (fun s : Sink => (s.written, s.text)) hsink

end Host

/-- Whether something is asked of the instances of one side alone, or makes one of them of a template of a group. -/
def Observation.uses (id : String) (own : String → Bool) : Observation → Bool
  | .instantiate group x _ => group == id && own x
  | .set x _ v | .append x _ v => own x && v.handles.all own
  | .render x _ _ => own x
  | _ => false

namespace Host

variable {h h' : Host} {ledger ledger' : List Note} {own : String → Bool} {id : String}

/-- Hosts that hold a group in two versions, and pairs of instances on one side. -/
structure Paired (own : String → Bool) (id : String) (g g' : Group) (ledger ledger' : List Note) (h h' : Host) :
    Prop where
  coherent : h.Coherent ledger
  coherent' : h'.Coherent ledger'
  group : h.group? id = some g
  group' : h'.group? id = some g'
  versions : g.Rephrases g g'
  instances : ∀ x, own x = true → Option.Rel (Instance.Paired g g') (h.instance? x) (h'.instance? x)

namespace Paired

/-- Both hosts look up a template of the group, or none does. -/
theorem lookup (hp : Paired own id g g' ledger ledger' h h') (name : String) :
    (∃ native native' p p' w w', (g.lookup name).run h.workspace = (.ok (native, p), w) ∧
      (g'.lookup name).run h'.workspace = (.ok (native', p'), w') ∧ p.name = p'.name ∧
      (Instance.ofProgram g native p none).Paired g g' (.ofProgram g' native' p' none)) ∨
    ∃ e w w', (g.lookup name).run h.workspace = (.error e, w) ∧ (g'.lookup name).run h'.workspace = (.error e, w') := by
  have hnoted {h : Host} {ledger : List Note} {g : Group} (hc : h.Coherent ledger) (hg : h.group? id = some g) native d
      (hf : g.find? name = some (native, d)) : native.Recorded ledger ∧ (name, d) ∈ native.templates := by
    obtain ⟨hn, hd⟩ := Group.mem_of_find? g hf
    exact ⟨hc.groups id g hg native hn, Dict.mem_of_find? hd⟩
  obtain ⟨w, hw, -⟩ := hp.coherent.agrees.resolveFound name (g.find? name) (hnoted hp.coherent hp.group)
  obtain ⟨w', hw', -⟩ := hp.coherent'.agrees.resolveFound name (g'.find? name) (hnoted hp.coherent' hp.group')
  have hfresh := (hp.versions.find? name).freshly
  have hrun := Group.lookup_run hw
  have hrun' := Group.lookup_run hw'
  generalize hr : Group.freshly name (g.find? name) = r,
    hr' : Group.freshly name (g'.find? name) = r' at hfresh hrun hrun'
  cases hfresh with
  | error e => exact .inr ⟨_, w, w', hrun, hp.versions.unresolvedError_eq name e ▸ hrun'⟩
  | ok hgroup hprogram =>
    have hname := (Group.name_of_freshly hr).trans (Group.name_of_freshly hr').symm
    exact .inl ⟨_, _, _, _, w, w', hrun, hrun', hname, .ofProgram hgroup hprogram hname⟩

/-- What is asked is answered the same, and makes paired instances. -/
theorem ask (hp : Paired own id g g' ledger ledger' h h') (o : Observation) (ho : o.uses id own = true) :
    ((o.ask h.group? h.instance?).run h.workspace).1.1 = ((o.ask h'.group? h'.instance?).run h'.workspace).1.1 ∧
      Option.Rel (Instance.Paired g g') ((o.ask h.group? h.instance?).run h.workspace).1.2
        ((o.ask h'.group? h'.instance?).run h'.workspace).1.2 := by
  cases o with
  | instantiate group x name =>
    rw [Observation.uses, Bool.and_eq_true, beq_iff_eq] at ho
    obtain ⟨rfl, -⟩ := ho
    rw [Observation.ask, Observation.ask, hp.group, hp.group', Observation.ask.asking, Observation.ask.asking,
      StateT.run_bind, StateT.run_bind]
    rcases hp.lookup name with ⟨native, native', p, p', w, w', hw, hw', hname, hi⟩ | ⟨e, w, w', hw, hw'⟩
    · rw [hw, hw']
      exact ⟨congrArg Answer.text hname, .some hi⟩
    · rw [hw, hw']
      exact ⟨rfl, .none⟩
  | set x key v | append x key v =>
    rw [Observation.uses, Bool.and_eq_true, List.all_eq_true] at ho
    have hx := hp.instances x ho.1
    have hv : (v.value h.instance?).Alike (Instance.Rephrased g) (v.value h'.instance?) :=
      v.value_alike fun y hy => rel_mono (fun _ _ hi => hi.alike) (hp.instances y (ho.2 y hy))
    rw [Observation.ask, Observation.ask]
    generalize h.instance? x = i, h'.instance? x = i', v.value h.instance? = u, v.value h'.instance? = u' at hx hv
    cases hx with
    | none => exact ⟨rfl, .none⟩
    | @some i i' hi =>
      have ha : Entries.Alike (Instance.Rephrased g) i.attributes i'.attributes := by
        cases hi.alike with
        | mk _ ha => exact ha
      rw [Observation.ask.asking, Observation.ask.asking]
      first
      | rw [Instance.set, Instance.set]
        obtain ⟨j, j', hj, hj', hpair⟩ | ⟨e, he, he'⟩ := hi.checked key (ha.insert key hv)
      | rw [Instance.append, Instance.append]
        obtain ⟨j, j', hj, hj', hpair⟩ | ⟨e, he, he'⟩ := hi.checked key (Attributes.append_alike ha key hv)
      · rw [hj, hj']
        exact ⟨rfl, .some hpair⟩
      · rw [he, he']
        exact ⟨rfl, .none⟩
  | render x interpreter room =>
    have hx := hp.instances x ho
    rw [Observation.ask, Observation.ask]
    generalize hi : h.instance? x = i, hi' : h'.instance? x = i' at hx
    cases hx with
    | none => exact ⟨rfl, .none⟩
    | @some i i' hpair =>
      have hwritten := renders_paired hp.coherent hp.coherent' hp.versions hi hi' hpair interpreter room
      rw [Observation.ask.asking, Observation.ask.asking, StateT.run_bind, StateT.run_bind]
      generalize (interpreter.renderTo room i).run h.workspace = r,
        (interpreter.renderTo room i').run h'.workspace = r' at hwritten
      obtain ⟨⟨count, text⟩, w⟩ := r
      obtain ⟨⟨count', text'⟩, w'⟩ := r'
      cases hwritten
      exact ⟨rfl, .none⟩
  | _ => cases ho

theorem observe (hp : Paired own id g g' ledger ledger' h h') (o : Observation) (ho : o.uses id own = true) :
    (h.observe o).1 = (h'.observe o).1 ∧ Paired own id g g' ledger ledger' (h.observe o).2 (h'.observe o).2 := by
  obtain ⟨hanswer, hmade⟩ := hp.ask o ho
  refine ⟨hanswer, hp.coherent.observe o, hp.coherent'.observe o, hp.group, hp.group', hp.versions, fun x hx => ?_⟩
  have hheld := hp.instances x hx
  rw [observe_instance?, observe_instance?]
  generalize ((o.ask h.group? h.instance?).run h.workspace).1.2 = made,
    ((o.ask h'.group? h'.instance?).run h'.workspace).1.2 = made' at hmade
  cases hmade with
  | none => exact hheld
  | some hpair =>
    rw [Handles.update, Handles.update]
    by_cases hn : x = o.target
    · rw [hn, Handles.lookup_put_self, Handles.lookup_put_self]
      exact .some hpair
    · rw [Handles.lookup_put_of_ne _ hn, Handles.lookup_put_of_ne _ hn]
      exact hheld

/-- Whatever is asked is answered the same. -/
theorem answers (hp : Paired own id g g' ledger ledger' h h') (os : List Observation)
    (hos : ∀ o ∈ os, o.uses id own = true) (wanted : Action → Bool) :
    h.answers wanted (os.map .observe) = h'.answers wanted (os.map .observe) := by
  induction os generalizing h h' with
  | nil => rfl
  | cons o os ih =>
    obtain ⟨ho, hos⟩ := List.forall_mem_cons.mp hos
    obtain ⟨hanswer, hp⟩ := hp.observe o ho
    have hrest := ih hp hos
    rw [List.map_cons, answers_cons, answers_cons]
    change (if wanted _ then (h.observe o).1 :: (h.observe o).2.answers wanted _
        else (h.observe o).2.answers wanted _) =
      if wanted _ then (h'.observe o).1 :: (h'.observe o).2.answers wanted _
        else (h'.observe o).2.answers wanted _
    rw [hanswer, hrest]

end Paired

end Host

/-! ## A page in other words -/

/-- A page that passes literals in order, with two options. -/
def inOrderPage : String := "<row(\"a\", \"b\"); null=\"-\", format=\"f\">"

/-- The page with its options the other way round. -/
def reorderedPage : String := "<row(\"a\", \"b\"); format=\"f\", null=\"-\">"

/-- The page with its arguments passed by name and its options the other way round. -/
def byNamePage : String := "<row(y=\"b\", x=\"a\"); format=\"f\", null=\"-\">"

/-- A site whose page calls a template for its rows. -/
def siteWith (page : String) : List Action :=
  [.build (.create "site" "site"), .build (.define "site" "row" (.ofNames ["x", "y"]) "<x>-<y>"),
    .build (.define "site" "page" (.ofNames []) page)]

/-- The callee, arguments and options of a tag that passes two literals in order. -/
def Element.inOrder? : List Element → Option (Callee × List String)
  | [.tag (.call callee (.positional [.literal a _, .literal b _]) _) [⟨m, .literal u _, _⟩, ⟨n, .literal v _, _⟩] _] =>
    some (callee, [a, b, m, u, n, v])
  | _ => none

/-- The callee, arguments and options of a tag that passes two literals by name. -/
def Element.byName? : List Element → Option (Callee × List String)
  | [.tag (.call callee (.named [⟨x, .literal a _, _⟩, ⟨y, .literal b _, _⟩]) _)
      [⟨m, .literal u _, _⟩, ⟨n, .literal v _, _⟩] _] => some (callee, [x, a, y, b, m, u, n, v])
  | _ => none

theorem Template.read_of_shape (source : String) (shape : List Element → Option (Callee × List String))
    (seen : Callee × List String) (h : ((Element.readAll source).toOption.bind shape) = some seen) :
    ∃ es, Template.read "page" (.ofNames []) source = .ok ⟨"page", .declared [], ⟨source, false⟩, [], es, false, 0⟩ ∧
      shape es = some seen := by
  cases hr : Element.readAll source with
  | error e =>
    rw [hr] at h
    cases h
  | ok es =>
    rw [hr] at h
    exact ⟨es, by rw [Template.read, hr]; rfl, h⟩

theorem Element.of_inOrder {es : List Element} {callee : Callee} {a b m u n v : String}
    (h : inOrder? es = some (callee, [a, b, m, u, n, v])) : ∃ s₁ s₂ s₃ s₄ s₅ s₆ s₇ s₈,
      es = [.tag (.call callee (.positional [.literal a s₁, .literal b s₂]) s₃)
        [⟨m, .literal u s₄, s₅⟩, ⟨n, .literal v s₆, s₇⟩] s₈] := by
  unfold inOrder? at h
  split at h
  · cases h
    exact ⟨_, _, _, _, _, _, _, _, rfl⟩
  · cases h

theorem Element.of_byName {es : List Element} {callee : Callee} {x a y b m u n v : String}
    (h : byName? es = some (callee, [x, a, y, b, m, u, n, v])) : ∃ s₁ s₂ s₃ s₄ s₅ s₆ s₇ s₈ s₉ s₁₀,
      es = [.tag (.call callee (.named [⟨x, .literal a s₁, s₂⟩, ⟨y, .literal b s₃, s₄⟩]) s₅)
        [⟨m, .literal u s₆, s₇⟩, ⟨n, .literal v s₈, s₉⟩] s₁₀] := by
  unfold byName? at h
  split at h
  · cases h
    exact ⟨_, _, _, _, _, _, _, _, _, _, rfl⟩
  · cases h

theorem TagOption.literals_rephrased (N : Naming) (m u n v : String) (s₁ s₂ s₃ s₄ t₁ t₂ t₃ t₄ : Span) :
    TagOption.RephrasedAll N [⟨m, .literal u s₁, s₂⟩, ⟨n, .literal v s₃, s₄⟩]
      [⟨m, .literal u t₁, t₂⟩, ⟨n, .literal v t₃, t₄⟩] :=
  .cons _ _ _ (.literal _ _ _) (.cons _ _ _ (.literal _ _ _) .nil)

/-- The first two pages are the same template, but for the order of the options. -/
theorem Template.pages_reordered : ∃ t t', Template.read "page" (.ofNames []) inOrderPage = .ok t ∧
    Template.read "page" (.ofNames []) reorderedPage = .ok t' ∧ t.Rephrased .none t' := by
  obtain ⟨es, hread, hes⟩ := Template.read_of_shape inOrderPage Element.inOrder?
    (⟨"row", false⟩, ["a", "b", "null", "-", "format", "f"]) (by decide +kernel)
  obtain ⟨es', hread', hes'⟩ := Template.read_of_shape reorderedPage Element.inOrder?
    (⟨"row", false⟩, ["a", "b", "format", "f", "null", "-"]) (by decide +kernel)
  obtain ⟨_, _, _, _, _, _, _, _, rfl⟩ := Element.of_inOrder hes
  obtain ⟨_, _, _, _, _, _, _, _, rfl⟩ := Element.of_inOrder hes'
  have hoptions := TagOption.literals_rephrased .none "null" "-" "format" "f"
  refine ⟨_, _, hread, hread', .refl _, .nil, .cons (.tag _ _ ?_ (hoptions _ _ _ _ _ _ _ _)
    (.of_perm (.swap _ _ []) (by simp))) .nil⟩
  exact .call _ _ _ (.positional (.cons (.literal _ _ _) (.cons (.literal _ _ _) .nil)))

/-- The first and the last page are one definition in other words, where rows have the two parameters. -/
theorem Definition.pages_rephrased {N : Naming} (hN : N ⟨"row", false⟩ ["x", "y"]) :
    Definition.Rephrased N "page" ⟨.ofNames [], inOrderPage, 2⟩ ⟨.ofNames [], byNamePage, 2⟩ := by
  obtain ⟨es, hread, hes⟩ := Template.read_of_shape inOrderPage Element.inOrder?
    (⟨"row", false⟩, ["a", "b", "null", "-", "format", "f"]) (by decide +kernel)
  obtain ⟨es', hread', hes'⟩ := Template.read_of_shape byNamePage Element.byName?
    (⟨"row", false⟩, ["y", "b", "x", "a", "format", "f", "null", "-"]) (by decide +kernel)
  obtain ⟨_, _, _, _, _, _, _, _, rfl⟩ := Element.of_inOrder hes
  obtain ⟨_, _, _, _, _, _, _, _, _, _, rfl⟩ := Element.of_byName hes'
  have hoptions := TagOption.literals_rephrased N "null" "-" "format" "f"
  refine .read hread hread' ⟨.refl _, .nil, .cons (.tag _ _ ?_ (hoptions _ _ _ _ _ _ _ _)
    (.of_perm (.swap _ _ []) (by simp))) .nil⟩
  exact .byName _ _ hN (.cons (.literal _ _ _) (.cons (.literal _ _ _) .nil)) ⟨Nat.le_refl 2, .swap _ _ []⟩

/-- What is in the site's group, if it holds a given page. -/
def Group.isSite (page : String) (g : Group) : Bool :=
  g.templates == [("page", ⟨.ofNames [], page, 2⟩), ("row", ⟨.ofNames ["x", "y"], "<x>-<y>", 1⟩)] &&
    g.imports.isEmpty && g.renderers.isEmpty

theorem Group.isSite_eq {page : String} {g : Group} (h : g.isSite page = true) :
    g.templates = [("page", ⟨.ofNames [], page, 2⟩), ("row", ⟨.ofNames ["x", "y"], "<x>-<y>", 1⟩)] ∧
      g.imports = [] ∧ g.renderers = [] := by
  rw [isSite, Bool.and_eq_true, Bool.and_eq_true, beq_iff_eq, List.isEmpty_iff, List.isEmpty_iff] at h
  exact ⟨h.1.1, h.1.2, h.2⟩

theorem Group.naming_row {page : String} {g : Group} (h : g.isSite page = true) :
    g.naming g ⟨"row", false⟩ ["x", "y"] := by
  obtain ⟨ht, hi, -⟩ := isSite_eq h
  have htakes : g.directory.Takes ⟨"row", false⟩ ["x", "y"] := by
    refine ⟨by decide, [⟨"x", none⟩, ⟨"y", none⟩], ?_, rfl⟩
    rw [Group.find?_directory]
    cases g
    cases ht
    cases hi
    rfl
  exact ⟨htakes, fun _ => htakes⟩

/-- Sites with the first and the last page are one group in other words. -/
theorem Group.sites_rephrase {g g' : Group} (h : g.isSite inOrderPage = true) (h' : g'.isSite byNamePage = true) :
    g.Rephrases g g' := by
  obtain ⟨ht, hi, hr⟩ := isSite_eq h
  obtain ⟨ht', hi', hr'⟩ := isSite_eq h'
  refine .mk ?_ ?_ (hr.trans hr'.symm)
  · rw [ht, ht']
    exact .cons ⟨rfl, Definition.pages_rephrased (naming_row h)⟩ (.cons ⟨rfl, .refl _⟩ .nil)
  · rw [hi, hi']
    exact .nil

/-! ## Interchange -/

/-- How arguments are passed and in which order options stand is all the same. A definition compiles in either words, if
its callees have the same parameters. Options in another order leave the code as it is, but for the source that it comes
from. And hosts that hold a group in two versions, and whose imports come in time, are answered the same when they make
instances of its templates, give them values and render them. -/
theorem arguments_interchangeable (name id : String) (g g' : Group) (as as' : List Action) (own : String → Bool)
    (os : List Observation) (wanted : Action → Bool) :
    (∀ {N : Naming} {d d' : Definition} {e e' : Directory}, d.Rephrased N name d' → e.Same e' → N.Fits e →
      ((Program.of? e name d.formals d.source).isSome ↔ (Program.of? e' name d'.formals d'.source).isSome)) ∧
    (∀ {source source' : String} {formals : Formals} {t t' : Template},
      Template.read name formals source = .ok t → Template.read name formals source' = .ok t' →
      t.Rephrased .none t' → ∀ e, Option.Rel (fun p p' => p.toCode.bare = p'.toCode.bare)
        (Program.of? e name formals source) (Program.of? e name formals source')) ∧
    (Host.empty.allowsAll as = true → Host.empty.allowsAll as' = true →
      (Host.empty.after as).group? id = some g → (Host.empty.after as').group? id = some g' → g.Rephrases g g' →
      (∀ x, own x = true → (Host.empty.after as).instance? x = none ∧ (Host.empty.after as').instance? x = none) →
      (∀ o ∈ os, o.uses id own = true) →
        (Host.empty.after as).answers wanted (os.map .observe) =
          (Host.empty.after as').answers wanted (os.map .observe)) := by
  refine ⟨fun hd he hN => ?_, fun ht ht' h e => Program.of?_reordered ht ht' h e, ?_⟩
  · have hboth := hd.compiles he hN
    revert hboth
    generalize Program.of? _ _ _ _ = o, Program.of? _ _ _ _ = o'
    intro hboth
    cases hboth <;> simp
  · intro ha ha' hg hg' hr hown hos
    obtain ⟨ledger, hc⟩ := Host.empty_coherent.after as ha
    obtain ⟨ledger', hc'⟩ := Host.empty_coherent.after as' ha'
    have hp : Host.Paired own id g g' ledger ledger' (Host.empty.after as) (Host.empty.after as') :=
      ⟨hc, hc', hg, hg', hr, fun x hx => by rw [(hown x hx).1, (hown x hx).2]; exact .none⟩
    exact hp.answers os hos wanted

theorem arguments_interchangeable_page : ∃ g g',
    Host.empty.allowsAll (siteWith inOrderPage) = true ∧ Host.empty.allowsAll (siteWith byNamePage) = true ∧
    (Host.empty.after (siteWith inOrderPage)).group? "site" = some g ∧
    (Host.empty.after (siteWith byNamePage)).group? "site" = some g' ∧ g.Rephrases g g' ∧
    ((Program.of? g.directory "page" (.ofNames []) inOrderPage).isSome ↔
      (Program.of? g'.directory "page" (.ofNames []) byNamePage).isSome) ∧
    Option.Rel (fun p p' => p.toCode.bare = p'.toCode.bare) (Program.of? g.directory "page" (.ofNames []) inOrderPage)
      (Program.of? g.directory "page" (.ofNames []) reorderedPage) ∧
    (Host.empty.after (siteWith inOrderPage)).answers (fun _ => true)
        ([.instantiate "site" "home" "page", .render "home" {} none].map .observe) =
      (Host.empty.after (siteWith byNamePage)).answers (fun _ => true)
        ([.instantiate "site" "home" "page", .render "home" {} none].map .observe) := by
  have hallow : Host.empty.allowsAll (siteWith inOrderPage) = true := by decide +kernel
  have hallow' : Host.empty.allowsAll (siteWith byNamePage) = true := by decide +kernel
  obtain ⟨g, hg, hsite⟩ := (Option.any_eq_true _ _).mp
    (show ((Host.empty.after (siteWith inOrderPage)).group? "site").any (Group.isSite inOrderPage) by decide +kernel)
  obtain ⟨g', hg', hsite'⟩ := (Option.any_eq_true _ _).mp
    (show ((Host.empty.after (siteWith byNamePage)).group? "site").any (Group.isSite byNamePage) by decide +kernel)
  have hnone : ((Host.empty.after (siteWith inOrderPage)).instance? "home").isNone := by decide +kernel
  have hnone' : ((Host.empty.after (siteWith byNamePage)).instance? "home").isNone := by decide +kernel
  have hr := Group.sites_rephrase hsite hsite'
  have hpage := Definition.pages_rephrased (Group.naming_row hsite)
  obtain ⟨t, t', hread, hread', hreordered⟩ := Template.pages_reordered
  obtain ⟨hcompile, hcode, hanswers⟩ := arguments_interchangeable "page" "site" g g' (siteWith inOrderPage)
    (siteWith byNamePage) (· == "home") [.instantiate "site" "home" "page", .render "home" {} none] (fun _ => true)
  have hboth := hcompile hpage hr.directory (g.naming_fits g)
  refine ⟨g, g', hallow, hallow', hg, hg', hr, hboth, hcode hread hread' hreordered _, ?_⟩
  have hown (x : String) (hx : (x == "home") = true) : (Host.empty.after (siteWith inOrderPage)).instance? x = none ∧
      (Host.empty.after (siteWith byNamePage)).instance? x = none := by
    rw [eq_of_beq hx]
    exact ⟨Option.isNone_iff_eq_none.mp hnone, Option.isNone_iff_eq_none.mp hnone'⟩
  exact hanswers hallow hallow' hg hg' hr hown (by decide)

end Stencil
