import Stencil.Proofs.Ledger
/-! An instance that is rendered in two workspaces. If both keep what compiling on the spot would give, the
instance writes the same text in both, and both go on keeping that. -/

namespace Stencil

open Rendering

/-- The groups in which an instance looks up templates, with all that they import. -/
def Instance.reach (i : Instance) : List Group := i.group.tree ++ i.native.tree

/-- Equal instances that reach groups of a kind. -/
def Instance.Among (K : Group → Prop) (i i' : Instance) : Prop := i = i' ∧ ∀ g ∈ i.reach, K g

variable {K : Group → Prop} {ledger ledger' : List Note} {i i' : Instance}

theorem Instance.among_self : i.Among K i ↔ (∀ g ∈ i.group.tree, K g) ∧ ∀ g ∈ i.native.tree, K g := by
  rw [Among, reach, List.forall_mem_append]
  exact and_iff_right rfl

/-- Alike instances are equal, and reach groups of the kind. -/
theorem Instance.Alike.among (h : i.Alike (Instance.Among K) i') : i = i' ∧ i.Among K i := by
  refine ⟨(h.mono fun _ _ h => h.1).eq, ?_⟩
  cases h with
  | mk hb _ => exact ⟨rfl, hb.2⟩

/-- Two machines that differ in their workspaces alone, which agree with a ledger each. -/
inductive Shared (K : Group → Prop) (ledger ledger' : List Note) : Machine → Machine → Prop where
  | mk {frames stack sink cursor w w'} (agrees : w.Agrees ledger) (agrees' : w'.Agrees ledger')
      (hold : frames.Hold (Instance.Among K)) :
      Shared K ledger ledger' ⟨frames, stack, sink, cursor, w⟩ ⟨frames, stack, sink, cursor, w'⟩

namespace Shared

variable {m m' : Machine}

theorem enter (h : Shared K ledger ledger' m m') (caller : Option Env) (bound : Instance) :
    (m.enter caller bound).1 = (m'.enter caller bound).1 ∧
      Shared K ledger ledger' (m.enter caller bound).2 (m'.enter caller bound).2 := by
  obtain ⟨ha, ha', hold⟩ := h
  exact ⟨rfl, .mk ha ha' (hold.enter _ _)⟩

theorem leave (h : Shared K ledger ledger' m m') (env : Env) (start height : Nat) :
    Shared K ledger ledger' (m.leave env start height) (m'.leave env start height) := by
  obtain ⟨ha, ha', hold⟩ := h
  refine .mk ha ha' (Frames.Hold.exit ?_ _)
  exact hold.of_face? fun scope frame hf => (Frames.face?_recordCompletion _ _ _).symm.trans hf

end Shared

/-- Instances that reach groups of a kind are called, by such instances. -/
def sharedAccord (K : Group → Prop) (ledger ledger' : List Note) : Accord := fun env bound env' bound' kept =>
  env = env' ∧ bound.Alike (Instance.Among K) bound' ∧
    (∀ a ∈ env.activations, a.bound.Alike (Instance.Among K) a.bound) ∧ kept = Shared K ledger ledger'

/-- What was looked up is defined in a group of the kind. -/
def Leads (K : Group → Prop) {ε : Type} (r : Except ε (Group × Program)) : Prop :=
  ∀ native program, r = .ok (native, program) → ∀ g ∈ native.tree, K g

/-- Gives the same in both workspaces, of which each goes on agreeing with its ledger. -/
def Steady (ledger ledger' : List Note) {α : Type} (P : α → Prop) (x : StateM Workspace α) : Prop :=
  ∀ w w', w.Agrees ledger → w'.Agrees ledger' → ∃ a v v', x.run w = (a, v) ∧ x.run w' = (a, v') ∧ P a ∧
    v.Agrees ledger ∧ v'.Agrees ledger'

namespace Steady

variable {α β : Type} {P : α → Prop} {Q : β → Prop}

theorem pure {a : α} (h : P a) : Steady ledger ledger' P (pure a) :=
  fun w w' hw hw' => ⟨a, w, w', rfl, rfl, h, hw, hw'⟩

theorem bind {x : StateM Workspace α} {f : α → StateM Workspace β} (h : Steady ledger ledger' P x)
    (hf : ∀ a, P a → Steady ledger ledger' Q (f a)) : Steady ledger ledger' Q (x >>= f) := by
  intro w w' hw hw'
  obtain ⟨a, v, v', hv, hv', hp, ha, ha'⟩ := h w w' hw hw'
  rw [StateT.run_bind, StateT.run_bind, hv, hv']
  exact hf a hp v v' ha ha'

/-- Slots are all that a ledger is about. -/
theorem modify {f : Workspace → Workspace} (hf : ∀ w, (f w).slots = w.slots) :
    Steady ledger ledger' (fun _ => True) (modify f : StateM Workspace PUnit) :=
  fun w w' hw hw' => ⟨⟨⟩, f w, f w', rfl, rfl, trivial, hw.of_slots (hf w), hw'.of_slots (hf w')⟩

end Steady

/-- What is found for a callee is defined in a group that the settings or the calling template reach. -/
theorem Group.found_among {root native group : Group} (hr : ∀ g ∈ root.tree, K g)
    (hn : ∀ g ∈ native.tree, K g) (callee : Callee) {d : Definition}
    (h : (if callee.inherited then native.findInherited? callee.name else root.find? callee.name) = some (group, d)) :
    (∀ g ∈ group.tree, K g) ∧ (callee.name, d) ∈ group.templates := by
  split at h
  · obtain ⟨hg, hd⟩ := Group.mem_of_findIn? native.imports h
    refine ⟨fun g hh => hn g ?_, Dict.mem_of_find? hd⟩
    rw [native.tree_eq]
    exact List.mem_cons_of_mem _ (treeIn_subset native.imports hg hh)
  · obtain ⟨hg, hd⟩ := Group.mem_of_find? root h
    exact ⟨fun g hh => hr g (tree_subset root hg hh), Dict.mem_of_find? hd⟩

section

variable (hK : ∀ g, K g → g.Recorded ledger) (hK' : ∀ g, K g → g.Recorded ledger')
include hK hK'

/-- What was found comes to the same in both workspaces. -/
theorem Steady.resolveFound (name : String) (found : Option (Group × Definition))
    (hf : ∀ group d, found = some (group, d) → (∀ g ∈ group.tree, K g) ∧ (name, d) ∈ group.templates) :
    Steady ledger ledger' (Leads K) (Group.resolveFound name found) := by
  intro w w' hw hw'
  have hmem (group : Group) (d : Definition) (hfound : found = some (group, d)) :
      K group ∧ (name, d) ∈ group.templates :=
    ⟨(hf group d hfound).1 group group.mem_tree, (hf group d hfound).2⟩
  obtain ⟨v, hv, ha⟩ := hw.resolveFound name found fun group d hfound => (hmem group d hfound).imp_left (hK group)
  obtain ⟨v', hv', ha'⟩ := hw'.resolveFound name found fun group d hfound => (hmem group d hfound).imp_left (hK' group)
  refine ⟨_, v, v', hv, hv', fun native program hr => ?_, ha, ha'⟩
  obtain ⟨d, hfound⟩ := Group.found_of_freshly hr
  exact (hf native d hfound).1

variable (settings : Settings) (hs : ∀ g ∈ settings.group.tree, K g)
include hs

/-- Callees come to the same in both workspaces. -/
theorem resolve_shared {A : Accord} {env : Env} (hn : ∀ g ∈ env.here.bound.native.tree, K g) (callee : Callee) :
    Matched A (Shared K ledger ledger') (fun r r' => r = r' ∧ Leads K r) (resolve settings env callee)
      (resolve settings env callee) := by
  rw [resolve_eq]
  refine .modifyGet (fun _ => rfl) fun m m' h => ?_
  obtain ⟨ha, ha', hold⟩ := h
  obtain ⟨r, v, v', hv, hv', hleads, hva, hva'⟩ := Steady.resolveFound hK hK' callee.name _
    (fun group d hfound => Group.found_among hs hn callee hfound) _ _ ha ha'
  rw [hv, hv']
  exact ⟨⟨rfl, hleads⟩, .mk hva hva' hold⟩

/-- An instance that runs in both workspaces. -/
def sharedTie (env : Env) (h : ∀ a ∈ env.activations, a.bound.Alike (Instance.Among K) a.bound) :
    Tie (sharedAccord K ledger ledger') where
  settings := settings
  env := env
  env' := env
  bare := Instance.Among K
  state := Shared K ledger ledger'
  allowed _ := True
  found _ := Leads K
  inner _ := True
  abreast := .refl _
  here := h _ List.mem_cons_self
  program_eq _ _ h := h.1 ▸ rfl
  sink_eq _ _ h := by
    cases h
    exact ⟨rfl, rfl⟩
  withSink m m' sink cursor h := by
    obtain ⟨ha, ha', hold⟩ := h
    exact .mk ha ha' hold
  report place m m' kind arguments causes _ h := by
    obtain ⟨ha, ha', hold⟩ := h
    exact .mk (ha.of_slots rfl) (ha'.of_slots rfl) hold
  usual := .all
  outputFailure := trivial
  isEarly_eq _ _ h := by
    cases h
    rfl
  setEarly m m' early h := by
    obtain ⟨ha, ha', hold⟩ := h
    exact .mk ha ha' (hold.change (fun frame => { frame with early }) (fun _ => rfl) (fun _ => id) _)
  record m m' output source h := by
    obtain ⟨ha, ha', hold⟩ := h
    exact .mk ha ha' (hold.of_face? fun scope frame hf => (Frames.face?_recordWriting _ _ _).symm.trans hf)
  keepDefault m m' name v v' hv h := by
    cases (hv.mono fun _ _ h => h.1).eq
    obtain ⟨ha, ha', hold⟩ := h
    exact .mk ha ha' (hold.change (fun frame => { frame with defaults := Dict.insert name v frame.defaults })
      (fun _ => rfl) (fun _ hd => hd.insert name hv) _)
  lookup m m' name hm := by
    obtain ⟨-, -, hold⟩ := hm
    exact hold.lookup h name none
  resolve := resolve_shared hK hK' settings hs (Instance.among_self.mp (h _ List.mem_cons_self).among.2).2
  fresh callee native program hf := Instance.among_self.mpr ⟨hs, hf native program rfl⟩
  enclosed program hf :=
    Instance.among_self.mpr ⟨hs, (Instance.among_self.mp (h _ List.mem_cons_self).among.2).2⟩
  call place bound bound' hb := ⟨rfl, hb, h, rfl⟩

/-- Evaluating an instance keeps two workspaces side by side. -/
theorem evaluate_shared (r : Reading) (n : Nat) {caller : Option Env} {bound : Instance} {m m' : Machine}
    (hchain : ∀ a ∈ chain caller, a.bound.Alike (Instance.Among K) a.bound)
    (hb : bound.Alike (Instance.Among K) bound) (h : Shared K ledger ledger' m m') :
    (evaluate r settings n caller bound m).Ends (fun _ _ => Shared K ledger ledger')
      (evaluate r settings n caller bound m') := by
  induction n generalizing caller bound m m' with
  | zero =>
    cases caller with
    | none => exact ⟨(), (), m, m', rfl, rfl, h⟩
    | some env =>
      obtain ⟨ha, ha', hold⟩ := h
      exact ⟨(), (), _, _, rfl, rfl, .mk (ha.of_slots rfl) (ha'.of_slots rfl) hold⟩
  | succ n ih =>
    have hall : ∀ a ∈ (m.enter caller bound).1.activations, a.bound.Alike (Instance.Among K) a.bound :=
      List.forall_mem_cons.mpr ⟨hb, hchain⟩
    obtain ⟨henv, hm⟩ := h.enter caller bound
    have hbody := runTree_matched (B := (sharedTie hK hK' settings hs (m.enter caller bound).1 hall).bond) (r := r)
      (.inl ⟨fun _ => trivial, fun _ _ => trivial, fun _ => trivial⟩) () _ _ hm
    have hrun (env : Env) (bound : Instance) (env' : Env) (bound' : Instance)
        (kept : Machine → Machine → Prop) (hacc : sharedAccord K ledger ledger' env bound env' bound' kept)
        (m m' : Machine) (hm : kept m m') : (evaluate r settings n (some env) bound m).Ends
          (fun _ _ => kept) (evaluate r settings n (some env') bound' m') := by
      obtain ⟨rfl, hb, hchain, rfl⟩ := hacc
      cases hb.among.1
      exact ih hchain hb hm
    have hsink : m.sink = m'.sink ∧ m.stack = m'.stack := by
      cases h
      exact ⟨rfl, rfl⟩
    rw [evaluate, nest, inFrame_apply, inFrame_apply, ← henv, ← hsink.1, ← hsink.2]
    exact (hbody.handle hrun).bind fun _ _ k k' hk => ⟨(), (), _, _, rfl, rfl, hk.2.leave _ _ _⟩

/-- So does its code. -/
theorem invoke_shared (n : Nat) {bound : Instance} {m m' : Machine}
    (hb : bound.Alike (Instance.Among K) bound) (h : Shared K ledger ledger' m m') :
    (invoke settings n none bound m).machine.sink = (invoke settings n none bound m').machine.sink ∧
      (invoke settings n none bound m).machine.workspace.Agrees ledger ∧
        (invoke settings n none bound m').machine.workspace.Agrees ledger' := by
  obtain ⟨r⟩ := Reading.nonempty
  have hnone : ∀ a ∈ chain none, a.bound.Alike (Instance.Among K) a.bound := nofun
  obtain ⟨_, _, k, k', hk, hk', hends⟩ := evaluate_shared hK hK' settings hs r n hnone hb h
  obtain ⟨_, _, j, i, hj, hi, hleft⟩ := invoke_ends r settings n none bound (m := m) rfl
  obtain ⟨_, _, j', i', hj', hi', hleft'⟩ := invoke_ends r settings n none bound (m := m') rfl
  cases hk.symm.trans hi
  cases hk'.symm.trans hi'
  obtain ⟨-, hsink, -, hw⟩ := Machine.still_eq_iff.mp hleft.still
  obtain ⟨-, hsink', -, hw'⟩ := Machine.still_eq_iff.mp hleft'.still
  rw [hj, hj', Course.machine, Course.machine, hsink, hsink', hw, hw']
  obtain ⟨ha, ha', -⟩ := hends
  exact ⟨rfl, ha, ha'⟩

end

/-! ## What a host asks -/

namespace Steady

variable (hK : ∀ g, K g → g.Recorded ledger) (hK' : ∀ g, K g → g.Recorded ledger') {g : Group}
  (hg : ∀ x ∈ g.tree, K x)
include hK hK' hg

/-- Looking up a template gives the same in both workspaces. -/
theorem lookup (name : String) : Steady ledger ledger' (Leads K) (g.lookup name) := by
  refine (Steady.resolveFound hK hK' name (g.find? name) fun group d hfound => ?_).bind fun r hr => ?_
  · exact Group.found_among hg hg ⟨name, false⟩ hfound
  · cases r with
    | ok found => exact .pure fun native program h => hr native program (by cases h; rfl)
    | error e => exact .pure nofun

/-- So does compiling all definitions. -/
theorem compileAll : Steady ledger ledger' (fun _ => True) g.compileAll := by
  have heach : Steady ledger ledger' (fun _ => True) (g.compileEach g.templates) := fun w w' hw hw' => by
    obtain ⟨v, hv, ha⟩ := hw.compileEach (hK g (hg g g.mem_tree)) g.templates (List.Subset.refl _)
    obtain ⟨v', hv', ha'⟩ := hw'.compileEach (hK' g (hg g g.mem_tree)) g.templates (List.Subset.refl _)
    exact ⟨_, v, v', hv, hv', trivial, ha, ha'⟩
  refine heach.bind fun failed _ => ?_
  cases failed <;> exact .pure trivial

omit hK hK' hg in
/-- So does compiling source on the spot. -/
theorem compileSource (g : Group) (source : String) :
    Steady ledger ledger' (fun _ => True) (g.compileSource source) := by
  unfold Group.compileSource
  split
  · exact .pure trivial
  · exact (Steady.modify fun w => w.slots_delivers _ _).bind fun _ _ => .pure trivial

omit hg in
/-- So does rendering. -/
theorem renderTo {bound : Instance} (hb : bound.Alike (Instance.Among K) bound) (i : Interpreter)
    (room : Option Nat) : Steady ledger ledger' (fun _ => True) (i.renderTo room bound) := by
  intro w w' hw hw'
  obtain ⟨hsink, ha, ha'⟩ := invoke_shared hK hK'
    ⟨i.depthLimit, bound.group, i.listener.getD bound.group.listener⟩ (Instance.among_self.mp hb.among.2).1
    (i.depthLimit + 1) hb (.mk hw hw' nofun : Shared K ledger ledger'
      ⟨.empty i.retain, [], .output room, 0, w⟩ ⟨.empty i.retain, [], .output room, 0, w'⟩)
  refine ⟨_, _, _, rfl, ?_, trivial, ha, ha'⟩
  exact congrArg (fun s : Sink => ((s.written, s.text), _)) hsink.symm

end Steady

end Stencil
