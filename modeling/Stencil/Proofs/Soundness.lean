import Stencil.Proofs.Correctness
import Stencil.Proofs.Faces
import Stencil.Proofs.Imports
import Stencil.Proofs.Matching
/-! Templates that were checked do not go wrong. A render is put beside itself: both sides are the same,
so all that is left to show is that no problem is reported which the checks rule out. -/

namespace Stencil

open Rendering

/-- The kinds of problems that checking rules out. -/
def Kind.ruledOut : List Kind :=
  [.undefinedTemplate, .emptyTemplateName, .templateCompileFailed, .argumentCountMismatch,
    .noSuchFormalArgument, .mapTemplateWithoutParameters, .internalError]

/-! ## Checked groups -/

/-- A definition is compiled, and its calls fit what its group knows. -/
structure Definition.Ready (w : Workspace) (g : Group) (d : Definition) (p : Program) : Prop where
  outcome : w.outcome? d.slot = some (.ready p)
  formals : p.formals = d.formals
  fits : ∃ t : Template, t.Gives p ∧ t.Fits g.directory

/-- Definitions of one name have the same parameters in a group and all its imports. -/
def Group.Uniform (root : Group) : Prop :=
  ∀ g ∈ root.tree, ∀ h ∈ root.tree, ∀ name d e, Dict.find? g.templates name = some d →
    Dict.find? h.templates name = some e → d.formals = e.formals

/-- All definitions of a group and its imports are ready, and those of one name have the same parameters. -/
structure Group.Checked (root : Group) (w : Workspace) : Prop where
  ready : ∀ g ∈ root.tree, ∀ name d, Dict.find? g.templates name = some d → ∃ p, d.Ready w g p
  uniform : root.Uniform

/-- An instance of a template whose calls fit what its group knows, and which is one of the groups. -/
structure Instance.Fits (root : Group) (i : Instance) : Prop where
  native : i.native ∈ root.tree
  fits : ∃ t : Template, t.Gives i.program ∧ t.Fits i.native.directory

/-- Equal instances of templates that fit. -/
def Instance.Same (root : Group) (i i' : Instance) : Prop := i = i' ∧ i.Fits root

theorem Instance.Alike.same {root : Group} {i i' : Instance} (h : i.Alike (Instance.Same root) i') :
    i.Fits root := by
  cases h with
  | mk hi _ => exact ⟨hi.2.native, hi.2.fits⟩

/-- Compiling what is compiled changes nothing. -/
theorem Group.resolveFound_ready {w : Workspace} {name : String} {found : Option (Group × Definition)}
    (h : ∀ native d, found = some (native, d) → ∃ p, w.outcome? d.slot = some (.ready p)) :
    (Group.resolveFound name found).run w = (match found with
      | none => (.error .undefined, w)
      | some (native, d) => match w.outcome? d.slot with
        | some (.ready p) => (.ok (native, p), w)
        | _ => (.error .compileFailed, w)) := by
  cases found with
  | none => rfl
  | some f =>
    obtain ⟨native, d⟩ := f
    obtain ⟨p, hp⟩ := h native d rfl
    have hc : (native.compiled name d).run w = (some p, w) := by
      simp only [compiled, StateT.run_bind, StateT.run_get, pure_bind, hp]
      rfl
    simp only [resolveFound, StateT.run_bind, hc, hp]
    rfl

/-! ## Defaults in frames -/

/-- The defaults in frames are related to themselves. -/
def Frames.Hold (I : Instance → Instance → Prop) (f : Frames) : Prop :=
  ∀ scope frame, f.face? scope = some frame → Entries.Alike I frame.defaults frame.defaults

namespace Frames.Hold

variable {I : Instance → Instance → Prop} {f g : Frames}

theorem of_face? (h : f.Hold I)
    (hg : ∀ scope frame, g.face? scope = some frame → f.face? scope = some frame) : g.Hold I :=
  fun scope frame hf => h scope frame (hg scope frame hf)

theorem change (h : f.Hold I) (c : Frame → Frame) (hc : ∀ frame, (c frame).face = c frame.face)
    (hkeep : ∀ frame, Entries.Alike I frame.defaults frame.defaults →
      Entries.Alike I (c frame).defaults (c frame).defaults) (scope : Nat) : (f.change scope c).Hold I := by
  intro other frame hf
  by_cases hs : scope = other
  · subst hs
    rw [f.face?_change hc] at hf
    obtain ⟨frame', hf', rfl⟩ := Option.map_eq_some_iff.mp hf
    exact hkeep frame' (h scope frame' hf')
  · rw [f.face?_change_of_ne hs] at hf
    exact h other frame hf

theorem enter (h : f.Hold I) (parent : Option Nat) (template : String) :
    (f.enter parent template).2.Hold I := by
  intro scope frame hf
  rcases Nat.lt_trichotomy scope f.size with hlt | rfl | hgt
  · rw [f.face?_enter_of_lt _ _ hlt] at hf
    exact h scope frame hf
  · rw [f.face?_enter] at hf
    cases hf
    exact .nil
  · have hlt := Frames.lt_size_of_face? _ hf
    rw [f.size_enter] at hlt
    omega

theorem exit (h : f.Hold I) (scope : Nat) : (f.exit scope).Hold I := by
  refine h.of_face? fun other frame hf => ?_
  rcases Nat.lt_or_ge other scope with hlt | hge
  · rw [f.face?_exit hlt] at hf
    exact hf
  · unfold Frames.exit at hf
    split at hf
    · rename_i hs
      have hs : scope + 1 = f.frames.size := of_decide_eq_true (Bool.and_eq_true_iff.mp hs).2
      have hlt := Frames.lt_size_of_face? _ hf
      simp only [Frames.size, Array.size_pop] at hlt
      omega
    · exact hf

end Frames.Hold

/-- What is found for a name is an attribute or a default of one of the activations. -/
theorem mem_of_lookupFrom {f : Frames} {name : String} {v : Value} : {wanted : Option Nat} →
    {as : List Activation} → lookupFrom f name wanted as = some v →
    ∃ a ∈ as, Dict.find? a.bound.attributes name = some v ∨ f.default? a.scope name = some v
  | wanted, a :: as, h => by
      have hpast {wanted : Option Nat} (h : lookupFrom f name wanted as = some v) :
          ∃ b ∈ a :: as, Dict.find? b.bound.attributes name = some v ∨ f.default? b.scope name = some v :=
        let ⟨b, hb, hv⟩ := mem_of_lookupFrom h
        ⟨b, List.mem_cons_of_mem _ hb, hv⟩
      rw [lookupFrom] at h
      split at h
      · split at h
        · cases h
          exact ⟨a, List.mem_cons_self, .inl ‹_›⟩
        · split at h
          · cases h
            exact ⟨a, List.mem_cons_self, .inr ‹_›⟩
          · split at h
            · exact hpast h
            · cases h
      · exact hpast h

/-- So it is related to itself, if the activations' instances and the defaults in frames are. -/
theorem Frames.Hold.lookup {I : Instance → Instance → Prop} {f : Frames} (hf : f.Hold I)
    {as : List Activation} (ha : ∀ a ∈ as, a.bound.Alike I a.bound) (name : String) (wanted : Option Nat) :
    Option.Rel (Value.Alike I) (lookupFrom f name wanted as) (lookupFrom f name wanted as) := by
  generalize hl : lookupFrom f name wanted as = o
  cases o with
  | none => exact .none
  | some v =>
    obtain ⟨a, ha', hv⟩ := mem_of_lookupFrom hl
    rcases hv with hv | hv
    · cases ha a ha' with
      | mk _ hattributes =>
        have hl := hattributes.lookup name
        rwa [show a.bound.attributes.lookup name = some v from hv] at hl
    · rw [f.default?_eq] at hv
      obtain ⟨frame, hframe, hv⟩ := Option.bind_eq_some_iff.mp hv
      have hl := (hf _ frame hframe).lookup name
      rwa [show frame.defaults.lookup name = some v from hv] at hl

/-! ## A render beside itself -/

/-- Since `w`, nothing was compiled and no problem reported that is ruled out. Defaults are instances of
templates that fit. -/
structure Safe (root : Group) (w : Workspace) (m m' : Machine) : Prop where
  same : m = m'
  slots : m.workspace.slots = w.slots
  told : ∃ told, m.workspace.delivered.toList = w.delivered.toList ++ told ∧
    ∀ t ∈ told, t.2.kind ∉ Kind.ruledOut
  frames : m.frames.Hold (Instance.Same root)

namespace Safe

variable {root : Group} {w : Workspace} {m m' : Machine}

theorem changeFrames (h : Safe root w m m') {f : Frames → Frames}
    (hf : (f m.frames).Hold (Instance.Same root)) :
    Safe root w (m.changeFrames f) (m'.changeFrames f) :=
  ⟨congrArg _ h.same, h.slots, h.told, hf⟩

theorem report (h : Safe root w m m') (settings : Settings) (env : Env) {kind : Kind}
    (hk : kind ∉ Kind.ruledOut) (arguments causes : List String) :
    Safe root w (m.report settings env kind arguments causes)
      (m'.report settings env kind arguments causes) := by
  obtain ⟨told, ht, hall⟩ := h.told
  refine ⟨congrArg _ h.same, h.slots, ⟨told ++ [(settings.listener, m.diagnostic env kind arguments causes)], ?_, ?_⟩,
    h.frames⟩
  · simp only [Machine.report, Workspace.deliver, Array.toList_push, ht, List.append_assoc]
  · exact List.forall_mem_append.mpr ⟨hall, List.forall_mem_singleton.mpr hk⟩

end Safe

/-- Instances of templates that fit are called, by such instances. -/
def safeAccord (root : Group) (w : Workspace) : Accord := fun env bound env' bound' kept =>
  env = env' ∧ bound.Alike (Instance.Same root) bound' ∧
    (∀ a ∈ env.activations, a.bound.Alike (Instance.Same root) a.bound) ∧ kept = Safe root w

variable {root : Group} {w : Workspace} {env : Env}

/-- What a callee comes to in a template that fits. -/
def Resolved (root native : Group) (callee : Callee) (r : Except Unresolved (Group × Program)) : Prop :=
  (∀ formals, native.directory.find? callee = some formals →
    ∃ group program, r = .ok (group, program) ∧ program.formals = formals) ∧
  ∀ group program, r = .ok (group, program) → group ∈ root.tree ∧
    ∃ t : Template, t.Gives program ∧ t.Fits group.directory

/-- Calls are looked up in the group of the outermost template, which has what the group of the calling
template knows. -/
theorem Group.Checked.resolved (hc : root.Checked w) {native : Group} (hn : native ∈ root.tree)
    (callee : Callee) {v : Workspace} (hv : v.slots = w.slots) :
    ∃ r, (if callee.inherited then native.resolveInherited callee.name
      else root.resolve callee.name).run v = (r, v) ∧ Resolved root native callee r := by
  have hout (slot : Nat) : v.outcome? slot = w.outcome? slot := by
    rw [Workspace.outcome?, Workspace.outcome?, hv]
  generalize hfound : (if callee.inherited then native.findInherited? callee.name
    else root.find? callee.name) = found
  have hrun : (if callee.inherited then native.resolveInherited callee.name
      else root.resolve callee.name) = Group.resolveFound callee.name found := by
    rw [← hfound]
    split <;> rfl
  have hready (group : Group) (d : Definition) (hf : found = some (group, d)) :
      group ∈ root.tree ∧ Dict.find? group.templates callee.name = some d ∧ ∃ p, d.Ready w group p := by
    obtain ⟨hg, hd⟩ := Group.mem_of_findCallee? hn (hfound.trans hf)
    exact ⟨hg, hd, hc.ready group hg _ d hd⟩
  rw [hrun, Group.resolveFound_ready fun group d hf => by
    obtain ⟨-, -, p, hp⟩ := hready group d hf
    exact ⟨p, (hout _).trans hp.outcome⟩]
  -- what the calling template's own group finds, with the same parameters
  have hknown (formals : Formals) (hd : native.directory.find? callee = some formals) :
      ∃ group d, found = some (group, d) ∧ d.formals = formals := by
    rw [Group.find?_directory] at hd
    obtain ⟨⟨g, e⟩, he, rfl⟩ := Option.map_eq_some_iff.mp hd
    unfold Group.findCallee? at he
    cases hi : callee.inherited with
    | true =>
      rw [hi, if_pos rfl] at he hfound
      exact ⟨g, e, hfound.symm.trans he, rfl⟩
    | false =>
      rw [hi, if_neg Bool.false_ne_true] at he hfound
      have hsome := Group.find?_isSome (Option.isSome_of_eq_some he) root hn
      rw [hfound] at hsome
      obtain ⟨⟨group, d⟩, hf⟩ := Option.isSome_iff_exists.mp hsome
      obtain ⟨hg, hd, -⟩ := hready group d hf
      obtain ⟨hg', hd'⟩ := Group.mem_of_find? native he
      exact ⟨group, d, hf, hc.uniform group hg g (Group.tree_subset root hn hg') _ d e hd hd'⟩
  cases found with
  | none =>
    refine ⟨_, rfl, fun formals hd => ?_, nofun⟩
    obtain ⟨_, _, hf, -⟩ := hknown formals hd
    cases hf
  | some f =>
    obtain ⟨group, d⟩ := f
    obtain ⟨hg, -, p, hp⟩ := hready group d rfl
    simp only [hout, hp.outcome]
    refine ⟨_, rfl, fun formals hd => ?_, fun group' program he => ?_⟩
    · obtain ⟨_, _, hf, rfl⟩ := hknown formals hd
      cases hf
      exact ⟨group, p, rfl, hp.formals⟩
    · cases he
      exact ⟨hg, hp.fits⟩

/-- An instance that runs beside itself, if its calls and those of its callers fit. -/
def safeTie (hc : root.Checked w) (settings : Settings) (hs : settings.group = root) (env : Env)
    (h : ∀ a ∈ env.activations, a.bound.Alike (Instance.Same root) a.bound) :
    Tie (safeAccord root w) where
  settings := settings
  env := env
  env' := env
  bare := Instance.Same root
  state := Safe root w
  allowed kind := kind ∉ Kind.ruledOut
  found callee r := Resolved root env.here.bound.native callee r
  inner program := ∃ t : Template, t.Gives program ∧ t.Fits env.here.bound.native.directory
  abreast := .refl _
  here := h _ List.mem_cons_self
  program_eq _ _ h := h.1 ▸ rfl
  sink_eq _ _ h := h.same ▸ ⟨rfl, rfl⟩
  withSink m m' sink cursor h := ⟨h.same ▸ rfl, h.slots, h.told, h.frames⟩
  report place m m' kind arguments causes hk h := h.report settings (env.atPlace place) hk arguments causes
  usual := ⟨by decide, by decide, by decide⟩
  outputFailure := by decide
  isEarly_eq _ _ h := h.same ▸ rfl
  setEarly m m' early h := h.changeFrames
    (h.frames.change (fun frame => { frame with early }) (fun _ => rfl) (fun _ => id) _)
  record m m' output source h := h.changeFrames (h.frames.of_face? fun scope frame hf =>
    (m.frames.face?_recordWriting _ _).symm.trans hf)
  keepDefault m m' name v v' hv h := by
    cases (hv.mono fun _ _ h => h.1).eq
    cases h.same
    exact h.changeFrames (h.frames.change
      (fun frame => { frame with defaults := Dict.insert name v frame.defaults }) (fun _ => rfl)
      (fun _ hd => hd.insert name hv) _)
  lookup m m' name hm := by
    cases hm.same
    exact hm.frames.lookup h name none
  resolve callee := by
    subst hs
    refine .modifyGet (fun _ => rfl) fun m m' hm => ?_
    cases hm.same
    obtain ⟨r, hr, hresolved⟩ := hc.resolved (h _ List.mem_cons_self).same.native callee hm.slots
    rw [hr]
    exact ⟨⟨rfl, hresolved⟩, rfl, hm.slots, hm.told, hm.frames⟩
  fresh callee native program hf := ⟨rfl, (hf.2 native program rfl).1, (hf.2 native program rfl).2⟩
  enclosed program hf := ⟨rfl, (h _ List.mem_cons_self).same.native, hf⟩
  call place bound bound' hb := ⟨rfl, hb, h, rfl⟩

/-- Templates whose calls fit run safely. -/
theorem safeTie_serves (hc : root.Checked w) (settings : Settings) (hs : settings.group = root)
    (env : Env) (h : ∀ a ∈ env.activations, a.bound.Alike (Instance.Same root) a.bound) (r : Reading) :
    (safeTie hc settings hs env h).bond.Serves r env.here.bound.native.directory where
  visited _ := trivial
  reaches _ formals hd _ hr := hr.1 formals hd
  inner t ha ht := by
    refine ⟨t, ⟨ht.proper, (r.program_code t ht.proper).symm, fun hn => ?_⟩, ht⟩
    rw [ha] at hn
    cases hn

/-! ## Runs -/

namespace Safe

variable {m m' : Machine}

theorem enter (h : Safe root w m m) (caller : Option Env) (bound : Instance) :
    Safe root w (m.enter caller bound).2 (m.enter caller bound).2 :=
  ⟨rfl, h.slots, h.told, h.frames.enter _ _⟩

theorem leave (h : Safe root w m m') (env : Env) (start height : Nat) :
    Safe root w (m.leave env start height) (m'.leave env start height) := by
  refine ⟨congrArg _ h.same, h.slots, h.told, Frames.Hold.exit ?_ _⟩
  exact h.frames.of_face? fun scope frame hf => (m.frames.face?_recordCompletion _ _).symm.trans hf

end Safe

/-- A reading that gives templates whose calls fit, where there are such. -/
def Reading.Fitting (r : Reading) : Prop :=
  ∀ g p, ∀ t : Template, t.Gives p → t.Fits g.directory → (r.template g p).Fits g.directory

/-- Evaluating an instance of a template whose calls fit reports no problem that is ruled out. -/
theorem evaluate_safe (hc : root.Checked w) {r : Reading} (hr : r.Fitting) (settings : Settings)
    (hs : settings.group = root) (n : Nat) {caller : Option Env} {bound : Instance} {m m' : Machine}
    (hchain : ∀ a ∈ chain caller, a.bound.Alike (Instance.Same root) a.bound)
    (hb : bound.Alike (Instance.Same root) bound) (h : Safe root w m m') :
    (evaluate r settings n caller bound m).Ends (fun _ _ => Safe root w)
      (evaluate r settings n caller bound m') := by
  cases h.same
  induction n generalizing caller bound m with
  | zero =>
    cases caller with
    | none => exact ⟨(), (), m, m, rfl, rfl, h⟩
    | some env => exact ⟨(), (), _, _, rfl, rfl, h.report settings env (by decide) _ _⟩
  | succ n ih =>
    have hall : ∀ a ∈ (m.enter caller bound).1.activations, a.bound.Alike (Instance.Same root) a.bound :=
      List.forall_mem_cons.mpr ⟨hb, hchain⟩
    obtain ⟨t, ht, hfits⟩ := hb.same.fits
    have hbody := runTree_matched (B := (safeTie hc settings hs (m.enter caller bound).1 hall).bond) (r := r)
      (.inr ⟨_, safeTie_serves hc settings hs _ hall r, hr _ _ t ht hfits⟩) () _ _ (h.enter caller bound)
    have hrun (env : Env) (bound : Instance) (env' : Env) (bound' : Instance)
        (kept : Machine → Machine → Prop) (hacc : safeAccord root w env bound env' bound' kept)
        (m m' : Machine) (hm : kept m m') : (evaluate r settings n (some env) bound m).Ends
          (fun _ _ => kept) (evaluate r settings n (some env') bound' m') := by
      obtain ⟨rfl, hb, hchain, rfl⟩ := hacc
      cases (hb.mono fun _ _ h => h.1).eq
      cases hm.same
      exact ih hchain hb hm
    exact (hbody.handle hrun).bind fun _ _ k k' hk => ⟨(), (), _, _, rfl, rfl, hk.2.leave _ _ _⟩

/-- So does its code. -/
theorem invoke_safe (hc : root.Checked w) (settings : Settings) (hs : settings.group = root) (n : Nat)
    {bound : Instance} (hb : bound.Alike (Instance.Same root) bound) (retained : Bool) (sink : Sink)
    (cursor : Nat) : ∃ told,
      (invoke settings n none bound ⟨.empty retained, [], sink, cursor, w⟩).machine.workspace.delivered.toList =
        w.delivered.toList ++ told ∧ ∀ t ∈ told, t.2.kind ∉ Kind.ruledOut := by
  obtain ⟨r, hr⟩ := Reading.preferring fun g t => t.Fits g.directory
  have hstart : Safe root w ⟨.empty retained, [], sink, cursor, w⟩ ⟨.empty retained, [], sink, cursor, w⟩ :=
    ⟨rfl, rfl, ⟨[], (List.append_nil _).symm, List.forall_mem_nil _⟩, nofun⟩
  have hnone : ∀ a ∈ chain none, a.bound.Alike (Instance.Same root) a.bound := nofun
  obtain ⟨_, _, k, k', hk, -, hsafe⟩ := evaluate_safe hc (r := r) hr settings hs n hnone hb hstart
  obtain ⟨_, _, j, j', hj, hj', hleft⟩ := invoke_ends r settings n none bound
    (m := ⟨.empty retained, [], sink, cursor, w⟩) rfl
  cases hk.symm.trans hj'
  rw [hj, Course.machine, (Machine.still_eq_iff.mp hleft.still).2.2.2]
  exact hsafe.told

end Stencil
