import Stencil.Proofs.Trees
import Stencil.Render.Interpreter
/-! Code is correct: running a program does what evaluating its tree does. -/

namespace Stencil

open Rendering

/-! ## Frames of instances -/

theorem Frames.next_enter (f : Frames) (parent : Option Nat) (template : String) :
    (f.enter parent template).2.next f.size = 0 ∧
      ∀ other < f.size, (f.enter parent template).2.next other = f.next other := by
  refine ⟨by simp [enter, next, get?, size], fun other ho => ?_⟩
  simp only [enter, next, get?, Array.getElem?_push_lt ho, Array.getElem?_eq_getElem ho]

theorem Frames.size_enter (f : Frames) (parent : Option Nat) (template : String) :
    (f.enter parent template).2.size = f.size + 1 := by
  simp [enter, size]

/-- The activations that are there when an instance is called. -/
def chain (caller : Option Env) : List Activation := (caller.map Env.activations).getD []

/-- Behind a run, both machines are alike apart from what only code needs, and the one that ran code
is as its caller needs it. -/
structure Left (base m m' : Machine) : Prop where
  still : m.still = m'.still
  keeps : base.Keeps m

variable {m m' k k' : Machine} {caller : Option Env} {bound : Instance}

theorem Machine.still_enter (h : m.still = m'.still) :
    (m.enter caller bound).1 = (m'.enter caller bound).1 ∧
      (m.enter caller bound).2.still = (m'.enter caller bound).2.still := by
  obtain ⟨hf, hs, hc, hw⟩ := still_eq_iff.mp h
  have he := m.frames.still_enter (caller.map Env.scope) bound.name
  rw [hf, Frames.still_enter] at he
  obtain ⟨h₁, h₂⟩ := Prod.mk.inj he
  exact ⟨by simp only [enter, h₁], still_eq_iff.mpr ⟨h₂.symm, hs, hc, hw⟩⟩

theorem Machine.still_leave {env : Env} {start height height' : Nat} (h : m.still = m'.still) :
    (m.leave env start height).still = (m'.leave env start height').still := by
  obtain ⟨hf, hs, hc, hw⟩ := still_eq_iff.mp h
  refine still_eq_iff.mpr ⟨?_, hs, hc, hw⟩
  have he : m.frames.isEarly env.scope = m'.frames.isEarly env.scope := by
    rw [← Frames.still_isEarly, hf, Frames.still_isEarly]
  simp only [leave, changeFrames, Frames.still_exit, Frames.still_recordCompletion, hf, hs, he]

/-- An instance starts at the first address, without operands. -/
theorem At.start {settings : Settings} (h : m.still = m'.still) :
    At ⟨settings, (m.enter caller bound).1, m.stack, m.frames.next⟩ [] 0
      (m.enter caller bound).2 (m'.enter caller bound).2 where
  still := (Machine.still_enter h).2
  stack := rfl
  live := Nat.lt_of_lt_of_eq (Nat.lt_succ_self _) (m.frames.size_enter _ _).symm
  next := (m.frames.next_enter _ _).1
  nexts := (m.frames.next_enter _ _).2

theorem Ended.leave {settings : Settings} {start : Nat}
    (h : Ended ⟨settings, (m.enter caller bound).1, m.stack, m.frames.next⟩ k k') :
    Left m (k.leave (m.enter caller bound).1 start m.stack.length)
      (k'.leave (m.enter caller bound).1 start m'.stack.length) := by
  obtain ⟨hs, ⟨operands, hst⟩, hl, hn⟩ := h
  have hsize (c : Completion) := Nat.lt_of_lt_of_eq hl (k.frames.size_recordCompletion c).symm
  refine ⟨Machine.still_leave hs, ?_, (Frames.exit_keeps _ _ (hsize _)).1, fun other ho => ?_⟩
  · simp [Machine.leave, Machine.changeFrames, hst]
  · refine ((Frames.exit_keeps _ _ (hsize _)).2 other ho).trans ?_
    exact (k.frames.next_recordCompletion _ _).trans (hn other ho)

/-! ## Runs -/

theorem inFrame_apply (caller : Option Env) (bound : Instance) (body : Env → Rendering Unit) (m : Machine) :
    inFrame caller bound body m =
      (body (m.enter caller bound).1 (m.enter caller bound).2).bind fun _ k =>
        .done () (k.leave (m.enter caller bound).1 m.sink.position m.stack.length) := rfl

/-- What calls leave is what their caller needs. -/
theorem Left.kept {kept : Machine → Machine → Prop}
    (hkeep : ∀ m m' k k', kept m m' → m.Keeps k → k.still = k'.still → kept k k') (hm : kept m m')
    {c c' : Course Unit} (h : c.Ends (fun _ _ => Left m) c') : c.Ends (fun _ _ => kept) c' :=
  h.mono fun _ _ k k' hk => hkeep m m' k k' hm hk.keeps hk.still

/-- Running a program and evaluating its tree come to ends that are alike, and miss nothing. -/
theorem invoke_ends (r : Reading) (settings : Settings) (n : Nat) (caller : Option Env)
    (bound : Instance) (h : m.still = m'.still) :
    (invoke settings n caller bound m).Ends (fun _ _ => Left m) (evaluate r settings n caller bound m') := by
  induction n generalizing caller bound m m' with
  | zero =>
    cases caller with
    | none => exact ⟨(), (), m, m', rfl, rfl, h, .refl m⟩
    | some env =>
      exact ⟨(), (), _, _, rfl, rfl, Machine.still_report _ _ _ _ _ h, rfl, Nat.le_refl _, fun _ _ => rfl⟩
  | succ n ih =>
    have hrun (env : Env) (bound : Instance) (env' : Env) (bound' : Instance)
        (kept : Machine → Machine → Prop) (hc : codeAccord env bound env' bound' kept) (m m' : Machine)
        (hm : kept m m') : (invoke settings n (some env) bound m).Ends (fun _ _ => kept)
          (evaluate r settings n (some env') bound' m') := by
      obtain ⟨rfl, rfl, hstill, hkeep⟩ := hc
      exact Left.kept hkeep hm (ih (some env) bound (hstill m m' hm))
    have hbody := runCode_coupled ⟨settings, (m.enter caller bound).1, m.stack, m.frames.next⟩ r _ _
      (.start h)
    have he : (m.enter caller bound).1 = (m'.enter caller bound).1 := (Machine.still_enter h).1
    rw [invoke, evaluate, nest, nest, inFrame_apply, inFrame_apply, ← he, ← (Machine.still_eq_iff.mp h).2.1]
    exact (hbody.handle hrun).bind fun _ _ k k' hk => ⟨(), (), _, _, rfl, rfl, hk.leave⟩

/-- Compiled code is correct. An instance of it writes the text, delivers the diagnostics and leaves the
frames that evaluating the tree of its source does, whatever it is bound to and wherever it runs. -/
theorem compile_correct (r : Reading) {directory : Directory} {name source : String} {formals : Formals}
    {p : Program} (hc : Program.compile directory name formals source = .ok p) (settings : Settings)
    (n : Nat) (caller : Option Env) (bound : Instance) (hb : bound.program = p) (m : Machine) :
    ∃ t k k', Template.read name formals source = .ok t ∧ r.template bound.native bound.program = t ∧
      invoke settings n caller bound m = .done () k ∧
      evaluate r settings n caller bound m = .done () k' ∧
      k.sink = k'.sink ∧ k.workspace = k'.workspace ∧ k.frames.still = k'.frames.still := by
  obtain ⟨t, hread, -, ht, rfl, rfl, rfl⟩ := Program.of_compile hc
  obtain ⟨_, _, k, k', hk, hk', h⟩ := invoke_ends r settings n caller bound (m := m) rfl
  obtain ⟨hf, hs, -, hw⟩ := Machine.still_eq_iff.mp h.still
  exact ⟨t, k, k', hread, hb ▸ r.template_read _ p t hread ht, hk, hk', hs, hw, hf⟩

theorem compile_correct_greeting :
    let directory : Directory := ⟨fun _ => none, fun _ => none, []⟩
    ∃ p t k k', Program.compile directory "greeting" (.ofNames ["name"]) "Hello, <name>!" = .ok p ∧
      let r := Classical.choice Reading.nonempty
      let settings : Settings := ⟨100, .empty "main", .log⟩
      let bound := (Instance.ofProgram settings.group settings.group p none).bind "name" (.text "World")
      let start : Machine := ⟨.empty false, [], .output none, 0, .empty⟩
      Template.read "greeting" (.ofNames ["name"]) "Hello, <name>!" = .ok t ∧
        r.template bound.native bound.program = t ∧
        invoke settings 101 none bound start = .done () k ∧
        evaluate r settings 101 none bound start = .done () k' ∧
        k.sink = k'.sink ∧ k.workspace = k'.workspace ∧ k.frames.still = k'.frames.still := by
  intro directory
  have hok : (Program.compile directory "greeting" (.ofNames ["name"]) "Hello, <name>!").isOk = true := by
    decide +kernel
  cases hp : Program.compile directory "greeting" (.ofNames ["name"]) "Hello, <name>!" with
  | error e =>
    rw [hp] at hok
    cases hok
  | ok p =>
    obtain ⟨t, k, k', h⟩ := compile_correct (Classical.choice Reading.nonempty) hp
      ⟨100, .empty "main", .log⟩ 101 none
      ((Instance.ofProgram (.empty "main") (.empty "main") p none).bind "name" (.text "World"))
      rfl ⟨.empty false, [], .output none, 0, .empty⟩
    exact ⟨p, t, k, k', rfl, h⟩

/-- No render falls back: code always finds the operands, constants and inner templates that it needs. -/
theorem invoke_done (settings : Settings) (n : Nat) (caller : Option Env) (bound : Instance)
    (m : Machine) : ∃ k, invoke settings n caller bound m = .done () k := by
  obtain ⟨r⟩ := Reading.nonempty
  obtain ⟨_, _, k, _, hk, -, -⟩ := invoke_ends r settings n caller bound (m := m) rfl
  exact ⟨k, hk⟩

/-- A render ends as evaluating the tree does, apart from what only code needs. -/
theorem Interpreter.final_still (r : Reading) (i : Interpreter) (retain : Bool) (room : Option Nat) (bound : Instance)
    (w : Workspace) : ∃ j, evaluate r ⟨i.depthLimit, bound.group, i.listener.getD bound.group.listener⟩
      (i.depthLimit + 1) none bound ⟨.empty retain, [], .output room, 0, w⟩ = .done () j ∧
        (i.final retain room bound w).still = j.still := by
  obtain ⟨_, _, k, j, hk, hj, hleft⟩ := invoke_ends r
    ⟨i.depthLimit, bound.group, i.listener.getD bound.group.listener⟩ (i.depthLimit + 1) none bound
    (m := ⟨.empty retain, [], .output room, 0, w⟩) rfl
  exact ⟨j, hj, (congrArg (fun c : Course Unit => c.machine.still) hk).trans hleft.still⟩

end Stencil
