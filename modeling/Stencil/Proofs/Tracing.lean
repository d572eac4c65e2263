import Stencil.Proofs.Containment
import Stencil.Proofs.Holding
import Stencil.Proofs.Scoping
/-! Tracing does not change rendering. A render that retains frames writes and reports what one does that
drops them, and the count of what was written is that of the text. -/

namespace Stencil

open Rendering

/-! ## What hosts build -/

/-- Building instances of groups, and giving them attributes, leads to no template of a frame. -/
theorem Host.perform_hostBuilt {h : Host} (hi : ∀ id i, h.instance? id = some i → i.HostBuilt) (a : Action) :
    ∀ id i, (h.perform a).2.instance? id = some i → i.HostBuilt := by
  cases a with
  | build b => exact hi
  | observe o =>
    have hl : Observation.Leaves (fun _ => True) (fun j => j.enclosing = none) h.workspace
        (o.ask h.group? h.instance?) :=
      o.ask_leaves trivial hi (fun _ _ _ _ => ⟨trivial, fun _ _ _ => rfl⟩) (fun _ _ _ => trivial)
        (fun _ _ _ _ _ _ => ⟨trivial, fun _ _ => rfl⟩) fun _ _ _ _ => trivial
    exact (Host.observe_leaves hl hi).2

/-- Every instance that a host comes to hold is built by it. -/
theorem Host.hostBuilt (as : List Action) {id : String} {bound : Instance}
    (hb : (Host.empty.after as).instance? id = some bound) : bound.HostBuilt := by
  have hall {h : Host} (hi : ∀ id i, h.instance? id = some i → i.HostBuilt) (as : List Action) :
      ∀ id i, (h.after as).instance? id = some i → i.HostBuilt := by
    induction as generalizing h with
    | nil => exact hi
    | cons a as ih => exact ih (perform_hostBuilt hi a)
  exact hall (h := .empty) nofun as id bound hb

/-! ## Retaining frames -/

namespace Interpreter

variable (i : Interpreter) (retain : Bool) (room : Option Nat) (bound : Instance) (w : Workspace)

/-- The count of what was written is that of the text. -/
theorem written_eq :
    (i.final retain room bound w).sink.written = (i.final retain room bound w).sink.text.length := by
  obtain ⟨visits, h, -⟩ := render_ends i retain room bound w
  exact (h.after rfl).1.written_eq

variable {bound}

/-- Whether frames are retained does not matter for what is written and reported. -/
theorem final_retain (hb : bound.HostBuilt) :
    (i.final retain room bound w).sink = (i.final true room bound w).sink ∧
      (i.final retain room bound w).workspace = (i.final true room bound w).workspace := by
  obtain ⟨r⟩ := Reading.nonempty
  let settings : Settings := ⟨i.depthLimit, bound.group, i.listener.getD bound.group.listener⟩
  have habreast : Abreast r settings (i.depthLimit + 1) none none bound bound
      ⟨.empty retain, [], .output room, 0, w⟩ ⟨.empty true, [], .output room, 0, w⟩ :=
    evaluate_abreast r settings _ .nil rfl (hb.twin _) ⟨.nil, rfl, rfl, rfl, rfl⟩
  obtain ⟨_, _, k, k', hk, hk', h⟩ := habreast.ends
  -- the trees of both renders are side by side, and the code of each is as its tree
  obtain ⟨j, hj, hs⟩ := i.final_still r retain room bound w
  obtain ⟨j', hj', hs'⟩ := i.final_still r true room bound w
  cases hk.symm.trans hj
  cases hk'.symm.trans hj'
  obtain ⟨-, hsink, -, hw⟩ := Machine.still_eq_iff.mp hs
  obtain ⟨-, hsink', -, hw'⟩ := Machine.still_eq_iff.mp hs'
  exact ⟨hsink.trans (h.sink.trans hsink'.symm), hw.trans (h.workspace.trans hw'.symm)⟩

end Interpreter

/-- Tracing does not change rendering. From one state of the workspace, a trace has the text as its output
that a render gives and writes, whether it retains frames or not, and all of them leave the workspace
with the same deliveries. The count of what is written is that of the text. -/
theorem tracing_transparent {bound : Instance} (hb : bound.HostBuilt) (i : Interpreter) (w : Workspace) :
    ∃ text w', (∃ frames, (i.trace bound).run w = (⟨text, frames⟩, w')) ∧
      ∀ retain, ({ i with retain }.render bound).run w = (text, w') ∧
        ({ i with retain }.renderTo none bound).run w = ((text.length, text), w') := by
  refine ⟨(i.final true none bound w).sink.text, (i.final true none bound w).workspace, ⟨_, rfl⟩, fun retain => ?_⟩
  have hto : ({ i with retain }.renderTo none bound).run w =
      (((i.final true none bound w).sink.text.length, (i.final true none bound w).sink.text),
        (i.final true none bound w).workspace) := by
    obtain ⟨hs, hw⟩ := i.final_retain retain none w hb
    have hcount := i.written_eq retain none bound w
    rw [← hs, ← hw, ← hcount]
    rfl
  exact ⟨congrArg (fun p : (Nat × String) × Workspace => (p.1.2, p.2)) hto, hto⟩

theorem tracing_transparent_words :
    let directory : Directory := ⟨fun _ => none, fun _ => none, []⟩
    ∃ p, Program.compile directory "words" (.ofNames ["words"]) "<words:{word | <word><i>}>" = .ok p ∧
      let i : Interpreter := {}
      let bound := (Instance.ofProgram (.empty "main") (.empty "main") p none).bind "words"
        (.sequence [.text "one", .text "two"])
      bound.HostBuilt ∧ ∃ text w', (∃ frames, (i.trace bound).run .empty = (⟨text, frames⟩, w')) ∧
        ∀ retain, ({ i with retain }.render bound).run .empty = (text, w') ∧
          ({ i with retain }.renderTo none bound).run .empty = ((text.length, text), w') := by
  intro directory
  have hok : (Program.compile directory "words" (.ofNames ["words"])
      "<words:{word | <word><i>}>").isOk = true := by
    decide +kernel
  obtain ⟨p, hp, -⟩ := Program.of_isOk hok
  have hb : ((Instance.ofProgram (.empty "main") (.empty "main") p none).bind "words"
      (.sequence [.text "one", .text "two"])).HostBuilt :=
    .mk ⟨rfl, rfl⟩ (.cons _ (.sequence (.cons (.text _) (.cons (.text _) .nil))) .nil)
  exact ⟨p, hp, hb, tracing_transparent hb {} .empty⟩

end Stencil
