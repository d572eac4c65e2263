import Stencil.Proofs.Coherence
import Stencil.Proofs.Reached
/-! What is known of all instances that a host holds, since it is known of those that it makes. -/

namespace Stencil

/-- Something is known of an instance, and of the templates that its attributes hold at any depth. -/
def Instance.All (K : Instance → Prop) (i : Instance) : Prop := i.Alike (fun j j' => j = j' ∧ K j) i

variable {K : Instance → Prop} {W : Workspace → Prop}

theorem Instance.All.mono {K' : Instance → Prop} {i : Instance} (h : i.All K) (hK : ∀ j, K j → K' j) : i.All K' :=
  Instance.Alike.mono (fun _ _ ⟨he, hj⟩ => ⟨he, hK _ hj⟩) h

theorem Instance.All.bare {i : Instance} (h : i.All K) : K i.bare := by
  cases h with
  | mk hi _ => exact hi.2

/-- Attributes that are checked replace those of an instance. -/
theorem Instance.All.checked {i i' : Instance} (h : i.All K) {name : String} {a : Attributes}
    (ha : Entries.Alike (fun j j' => j = j' ∧ K j) a a) (hi : i.checked name a = .ok i') : i'.All K :=
  Instance.Alike.checked h ha hi

/-! ## Renders -/

/-- In a render something is known of all instances, also of those in defaults, and of the workspace. -/
def Facts.holding (K : Instance → Prop) (W : Workspace → Prop) : Facts where
  bare := K
  Outlet := Unit
  output _ _ _ := True
  frames f := f.Hold fun i i' => i = i' ∧ K i
  workspace _ _ := W

/-- Deliveries and lookups keep what is known of a workspace, and what instances of a kind make is of the kind. -/
structure Facts.Upheld (K : Instance → Prop) (W : Workspace → Prop) (settings : Settings) : Prop where
  deliver : ∀ w d, d.phase = .render → W w → W (w.deliver settings.listener d)
  resolve : ∀ name, (holding K W).Resolves settings (settings.group.resolve name)
  resolveInherited : ∀ i, K i → ∀ name, (holding K W).Resolves settings (i.native.resolveInherited name)
  enclosed : ∀ i, K i → ∀ index program scope, i.program.subprogram? index = some program →
    K (.ofProgram settings.group i.native program scope)

namespace Facts.Upheld

open Rendering

variable {settings : Settings}

theorem kept (h : Upheld K W settings) {env : Env}
    (henv : ∀ a ∈ env.activations, a.bound.Alike (holding K W).Same a.bound) : (holding K W).Kept settings env := by
  have hhere := henv env.here List.mem_cons_self
  have hbare : K env.here.bound.bare := Instance.All.bare hhere
  exact {
    here := hhere
    accept := fun _ _ _ _ hm _ => ⟨hm.frames, hm.stack, trivial, hm.workspace⟩
    fail := fun _ m _ hm _ _ => ⟨hm.frames, hm.stack, trivial, h.deliver m.workspace _ rfl hm.workspace⟩
    scratch := fun _ _ hm => ⟨(), ⟨hm.frames, hm.stack, trivial, hm.workspace⟩,
      fun _ hk => ⟨hk.frames, hk.stack, trivial, hk.workspace⟩⟩
    report := fun _ m _ _ _ _ hm => ⟨hm.frames, hm.stack, trivial, h.deliver m.workspace _ rfl hm.workspace⟩
    setEarly := fun _ early _ hf => hf.change (fun frame => { frame with early }) (fun _ => rfl) (fun _ => id) _
    record := fun f _ _ _ hf => hf.of_face? fun _ _ hs => (f.face?_recordWriting _ _).symm.trans hs
    storeDefault := fun _ name v hv hf =>
      hf.change (fun frame => { frame with defaults := Dict.insert name v frame.defaults }) (fun _ => rfl)
        (fun _ hd => hd.insert name hv) _
    lookup := fun _ name hf => hf.lookup henv name none
    resolve := h.resolve
    resolveInherited := h.resolveInherited env.here.bound.bare hbare
    enclosed := fun program ⟨index, hp⟩ => h.enclosed env.here.bound.bare hbare index program _ hp }

theorem lasting (h : Upheld K W settings) : (holding K W).Lasting settings where
  kept _ henv := h.kept henv
  enter _ _ _ hf := hf.enter _ _
  setNext f scope address hf := hf.of_face? fun other _ hs =>
    (f.face?_change_eq (g := fun frame => { frame with next := address }) (fun _ => rfl) scope other).symm.trans hs
  exit f _ _ hf := Frames.Hold.exit (hf.of_face? fun _ _ hs => (f.face?_recordCompletion _ _).symm.trans hs) _

/-- Rendering starts with what is known. -/
theorem start {bound : Instance} (hb : bound.All K) (retain : Bool) (sink : Sink) (cursor : Nat) {w : Workspace}
    (hw : W w) : (holding K W).contract.before () none bound ⟨.empty retain, [], sink, cursor, w⟩ :=
  ⟨nofun, hb, nofun, .nil, trivial, hw⟩

/-- Rendering keeps what is known of the workspace. -/
theorem renderTo (i : Interpreter) (room : Option Nat) {bound : Instance} (hb : bound.All K) {w : Workspace}
    (h : Upheld K W ⟨i.depthLimit, bound.group, i.listener.getD bound.group.listener⟩) (hw : W w) :
    W ((i.renderTo room bound).run w).2 := by
  obtain ⟨visits, hrender, -⟩ := render_ends i i.retain room bound w
  exact (h.lasting.contract.invokes hrender (start hb _ _ _ hw)).workspace

end Facts.Upheld

/-! ## Hosts -/

namespace Observation

variable {groups : String → Option Group} {instances : String → Option Instance} {w : Workspace}

/-- What asking leaves of a workspace is known, and so is what is made. -/
def Leaves (W : Workspace → Prop) (K : Instance → Prop) (w : Workspace)
    (action : StateM Workspace (Answer × Option Instance)) : Prop :=
  W (action.run w).2 ∧ ∀ i, (action.run w).1.2 = some i → i.All K

theorem Leaves.pure (hw : W w) {answer : Answer} {made : Option Instance} (hm : ∀ i, made = some i → i.All K) :
    Leaves W K w (Pure.pure (answer, made)) := ⟨hw, hm⟩

theorem Leaves.bind {α : Type} {action : StateM Workspace α} {f : α → StateM Workspace (Answer × Option Instance)}
    (h : Leaves W K (action.run w).2 (f (action.run w).1)) : Leaves W K w (action >>= f) := h

theorem Leaves.asking {α : Type} {held : Option α} {f : α → StateM Workspace (Answer × Option Instance)}
    (hw : W w) (hf : ∀ a, held = some a → Leaves W K w (f a)) : Leaves W K w (Observation.ask.asking held f) := by
  cases held with
  | none => exact .pure hw nofun
  | some a => exact hf a rfl

/-- Hosts make instances of templates that they look up and of source that they compile, and give them
attributes. -/
theorem ask_leaves (o : Observation) (hw : W w) (hi : ∀ id i, instances id = some i → i.All K)
    (lookup : ∀ id g name, groups id = some g → W ((g.lookup name).run w).2 ∧ ∀ native program,
      ((g.lookup name).run w).1 = .ok (native, program) → K (.ofProgram g native program none))
    (compileAll : ∀ id g, groups id = some g → W (g.compileAll.run w).2)
    (compileSource : ∀ group id source g, o = .improvise group id source → groups group = some g →
      W ((g.compileSource source).run w).2 ∧ ∀ program,
        ((g.compileSource source).run w).1 = .ok program → K (.ofProgram g g program none))
    (render : ∀ i, i.All K → ∀ (interpreter : Interpreter) room, W ((interpreter.renderTo room i).run w).2) :
    Leaves W K w (o.ask groups instances) := by
  cases o with
  | lookup group name | disassemble group name =>
    refine .asking hw fun g h => .bind ?_
    have hl := (lookup group g name h).1
    split <;> exact .pure hl nofun
  | compileAll group =>
    refine .asking hw fun g h => .bind ?_
    have hc := compileAll group g h
    split <;> exact .pure hc nofun
  | names group | sourceOf group name => exact .asking hw fun g _ => .pure hw nofun
  | instantiate group id name =>
    refine .asking hw fun g h => .bind ?_
    obtain ⟨hl, hmade⟩ := lookup group g name h
    split
    · rename_i native program hr
      refine .pure hl fun i he => ?_
      cases he
      exact .mk ⟨rfl, hmade _ _ hr⟩ .nil
    · exact .pure hl nofun
  | improvise group id source =>
    refine .asking hw fun g h => .bind ?_
    obtain ⟨hc, hmade⟩ := compileSource group id source g rfl h
    split
    · rename_i program hr
      refine .pure hc fun i he => ?_
      cases he
      exact .mk ⟨rfl, hmade _ hr⟩ .nil
    · exact .pure hc nofun
  | set id name v | append id name v =>
    refine .asking hw fun i h => ?_
    have hself := hi id i h
    have hvalue := v.value_alike fun id _ => rel_self fun i h => hi id i h
    split
    · rename_i hset
      refine .pure hw fun i h => ?_
      cases h
      refine hself.checked ?_ hset
      cases hself with
      | mk _ ha =>
        first
        | exact ha.insert name hvalue
        | exact Attributes.append_alike ha name hvalue
    · exact .pure hw nofun
  | render id interpreter room =>
    exact .asking hw fun i h => .bind (.pure (render i (hi id i h) interpreter room) nofun)

end Observation

namespace Host

variable {h : Host}

/-- Asking keeps what is known of the workspace and of all instances. -/
theorem observe_leaves {o : Observation} (hl : Observation.Leaves W K h.workspace (o.ask h.group? h.instance?))
    (hi : ∀ id i, h.instance? id = some i → i.All K) :
    W (h.observe o).2.workspace ∧ ∀ id i, (h.observe o).2.instance? id = some i → i.All K := by
  refine ⟨hl.1, fun id i he => ?_⟩
  rw [observe_instance?] at he
  rcases Handles.of_lookup_update he with ⟨hmade, -⟩ | ⟨he, -⟩
  · exact hl.2 i hmade
  · exact hi id i he

end Host

end Stencil
