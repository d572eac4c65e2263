import Stencil.Proofs.Footprint
import Stencil.Proofs.Keeping
import Stencil.Proofs.WellFormed
import Stencil.Render.Interpreter
/-! Renders end, and the depth limit is respected. What a render does is described without a bound on its
steps: an instance runs as long as it finds instructions, and calls go as deep as the frames allow. -/

namespace Stencil

/-- The frames when an instruction is left for the next one to be carried out. -/
def Flow.apply (flow : Flow) (scope : Nat) (f : Frames) : Frames :=
  match flow with
  | .next => f
  | .jump target => f.setNext scope target

/-- What happens in a render: an instance is entered and carries out the instructions at some addresses,
or it is refused because it would lie too deep. -/
inductive Visit where
  | entered (env : Env) (frames : Frames) (addresses : List Nat)
  | refused (env : Env) (bound : Instance) (before after : Machine)

mutual

/-- Running an instance ends in a state, with the visits in order. -/
inductive Invokes (settings : Settings) : Option Env → Instance → Machine → List Visit → Machine → Prop where
  | refused {env : Env} {bound : Instance} {m k : Machine}
      (deep : settings.depthLimit < m.frames.depth env.scope + 1)
      (reported : k = m.report settings env .recursionLimit [toString settings.depthLimit, bound.name] []) :
      Invokes settings (some env) bound m [.refused env bound m k] k
  | entered {caller : Option Env} {bound : Instance} {env : Env} {m k l : Machine} {addresses : List Nat}
      {visits : List Visit}
      (shallow : ∀ env ∈ caller, m.frames.depth env.scope + 1 ≤ settings.depthLimit)
      (enter : m.enter caller bound = (env, k)) (run : Runs settings env k addresses visits l) :
      Invokes settings caller bound m (.entered env k.frames addresses :: visits)
        (l.leave env m.sink.position m.stack.length)

/-- The instance that runs carries out the instructions at some addresses, until there is none at the
address that its frame names, or one of them fails. -/
inductive Runs (settings : Settings) : Env → Machine → List Nat → List Visit → Machine → Prop where
  | ends {env : Env} {m : Machine} (outside : env.program.lines[m.frames.next env.scope]? = none) :
      Runs settings env m [] [] m
  | fails {env : Env} {m k : Machine} {address : Nat} {line : Line Nat Nat} {visits : List Visit}
      (here : m.frames.next env.scope = address) (inside : env.program.lines[address]? = some line)
      (does : Follows settings ((Rendering.perform settings (env.atPlace line.span) line.instr).run
        (m.changeFrames fun f => f.setNext env.scope (address + 1))) none visits k) :
      Runs settings env m [address] visits k
  | continues {env : Env} {m k l : Machine} {address : Nat} {line : Line Nat Nat} {flow : Flow}
      {addresses : List Nat} {visits visits' : List Visit}
      (here : m.frames.next env.scope = address) (inside : env.program.lines[address]? = some line)
      (does : Follows settings ((Rendering.perform settings (env.atPlace line.span) line.instr).run
        (m.changeFrames fun f => f.setNext env.scope (address + 1))) (some flow) visits k)
      (run : Runs settings env (k.changeFrames (flow.apply env.scope)) addresses visits' l) :
      Runs settings env m (address :: addresses) (visits ++ visits') l

/-- A course ends with a value in a state when the instances that it calls are run. -/
inductive Follows (settings : Settings) : Course (Option Flow) → Option Flow → List Visit → Machine → Prop where
  | done {flow : Option Flow} {m : Machine} : Follows settings (.done flow m) flow [] m
  | call {env : Env} {bound : Instance} {flow : Option Flow} {m k l : Machine}
      {rest : Machine → Course (Option Flow)} {visits visits' : List Visit}
      (invokes : Invokes settings (some env) bound m visits k)
      (follows : Follows settings (rest k) flow visits' l) :
      Follows settings (.call env bound m rest) flow (visits ++ visits') l

end

mutual

/-- There is one way to run an instance. -/
theorem Invokes.unique {settings : Settings} {caller : Option Env} {bound : Instance} {m k k' : Machine}
    {visits visits' : List Visit} : Invokes settings caller bound m visits k →
      Invokes settings caller bound m visits' k' → visits = visits' ∧ k = k'
  | .refused deep hk, h' => by
      cases h' with
      | refused _ hk' =>
        cases hk.trans hk'.symm
        exact ⟨rfl, rfl⟩
      | entered shallow => exact absurd (shallow _ rfl) (Nat.not_le.mpr deep)
  | .entered shallow he hr, h' => by
      cases h' with
      | refused deep => exact absurd (shallow _ rfl) (Nat.not_le.mpr deep)
      | entered _ he' hr' =>
        cases he.symm.trans he'
        obtain ⟨rfl, rfl, rfl⟩ := hr.unique hr'
        exact ⟨rfl, rfl⟩

theorem Runs.unique {settings : Settings} {env : Env} {m k k' : Machine} {addresses addresses' : List Nat}
    {visits visits' : List Visit} : Runs settings env m addresses visits k →
      Runs settings env m addresses' visits' k' → addresses = addresses' ∧ visits = visits' ∧ k = k'
  | .ends outside, h' => by
      cases h' with
      | ends => exact ⟨rfl, rfl, rfl⟩
      | fails here inside | continues here inside => cases outside.symm.trans (here ▸ inside)
  | .fails here inside does, h' => by
      cases h' with
      | ends outside => cases outside.symm.trans (here ▸ inside)
      | fails here' inside' does' =>
        cases here.symm.trans here'
        cases inside.symm.trans inside'
        obtain ⟨-, rfl, rfl⟩ := does.unique does'
        exact ⟨rfl, rfl, rfl⟩
      | continues here' inside' does' =>
        cases here.symm.trans here'
        cases inside.symm.trans inside'
        cases (does.unique does').1
  | .continues here inside does run, h' => by
      cases h' with
      | ends outside => cases outside.symm.trans (here ▸ inside)
      | fails here' inside' does' =>
        cases here.symm.trans here'
        cases inside.symm.trans inside'
        cases (does.unique does').1
      | continues here' inside' does' run' =>
        cases here.symm.trans here'
        cases inside.symm.trans inside'
        obtain ⟨hflow, rfl, rfl⟩ := does.unique does'
        cases hflow
        obtain ⟨rfl, rfl, rfl⟩ := run.unique run'
        exact ⟨rfl, rfl, rfl⟩

theorem Follows.unique {settings : Settings} {c : Course (Option Flow)} {flow flow' : Option Flow}
    {k k' : Machine} {visits visits' : List Visit} : Follows settings c flow visits k →
      Follows settings c flow' visits' k' → flow = flow' ∧ visits = visits' ∧ k = k'
  | .done, h' => by
      cases h'
      exact ⟨rfl, rfl, rfl⟩
  | .call hi hf, h' => by
      cases h' with
      | call hi' hf' =>
        obtain ⟨rfl, rfl⟩ := hi.unique hi'
        obtain ⟨rfl, rfl, rfl⟩ := hf.unique hf'
        exact ⟨rfl, rfl, rfl⟩

end

/-! ## What is known of visits -/

/-- The frames are those of the instances that are active, each at its depth, which the limit allows, and
addresses rise and lie inside the code. An instance is only refused right below the limit, and all
that comes of it is one diagnostic of its caller. -/
def Visit.Sound (settings : Settings) : Visit → Prop
  | .entered env frames addresses =>
    frames.depth env.scope = env.callers.length ∧ frames.depth env.scope ≤ settings.depthLimit ∧
      env.activations.length ≤ settings.depthLimit + 1 ∧
      (frames.retained = false → frames.size = env.activations.length) ∧
      addresses.Pairwise (· < ·) ∧ ∀ address ∈ addresses, address < env.program.lines.length
  | .refused env bound before after =>
    before.frames.depth env.scope = settings.depthLimit ∧ ∃ d : Diagnostic,
      d.kind = .recursionLimit ∧ d.template = some env.program.name ∧
      d.arguments = [toString settings.depthLimit, bound.name] ∧
      d.callPath = before.frames.callPath env.scope ∧
      after = { before with workspace := before.workspace.deliver settings.listener d }

/-- The frames in which an instance may be called: its caller's lies as deep as it has callers, and there
are only those of active instances unless frames are retained. -/
structure Fits (caller : Option Env) (f : Frames) : Prop where
  live : ∀ env ∈ caller, env.scope < f.size
  depth : ∀ env ∈ caller, f.depth env.scope = env.callers.length
  tight : f.retained = false → f.size = (chain caller).length

variable {settings : Settings} {caller : Option Env} {env : Env} {f : Frames} {m k : Machine}

namespace Fits

/-- A render starts without frames. -/
theorem start (retain : Bool) : Fits none (.empty retain) where
  live _ h := nomatch h
  depth _ h := nomatch h
  tight _ := rfl

theorem keeps {n : Nat} {g : Frames} (h : Fits caller f) (hk : f.Keeps n g) : Fits caller g where
  live env he := Nat.lt_of_lt_of_le (h.live env he) hk.size
  depth env he := (hk.depth _ (h.live env he)).trans (h.depth env he)
  tight hr := by
    have hf := hk.retained.symm.trans hr
    exact (hk.tight hf).trans (h.tight hf)

theorem atPlace (place : Option Span) (h : Fits (some env) f) : Fits (some (env.atPlace place)) f where
  live e he := by
    cases he
    exact h.live env rfl
  depth e he := by
    cases he
    exact h.depth env rfl
  tight := h.tight

/-- The caller's depth and the number of instances that may still be nested in it add up to the limit. -/
theorem depth_add {n : Nat} (h : Fits (some env) f)
    (hn : n + (chain (some env)).length = settings.depthLimit + 1) :
    f.depth env.scope + n = settings.depthLimit := by
  rw [h.depth env rfl]
  change n + (env.callers.length + 1) = _ at hn
  omega

/-- An instance that was entered may call others. -/
theorem enter {bound : Instance} (h : Fits caller m.frames) (he : m.enter caller bound = (env, k)) :
    Fits (some env) k.frames := by
  cases he
  have hsize := m.frames.size_enter (caller.map Env.scope) bound.name
  refine ⟨fun e he => ?_, fun e he => ?_, fun hr => ?_⟩
  · cases he
    exact Nat.lt_of_lt_of_eq (Nat.lt_succ_self _) hsize.symm
  · cases he
    refine (m.frames.depth_enter _ _ fun scope hs => ?_).trans ?_
    · obtain ⟨env, he, rfl⟩ := Option.map_eq_some_iff.mp hs
      exact h.live env he
    · cases caller with
      | none => rfl
      | some env => exact congrArg (· + 1) (h.depth env rfl)
  · exact hsize.trans (congrArg (· + 1) (h.tight hr))

end Fits

/-! ## Instructions -/

/-- What is known of the frames while the instance that runs carries out an instruction: all that were
there are kept. -/
def Frames.keeping (f : Frames) : Facts := .plain Unit (fun _ _ _ => True) (f.Keeps f.size)

/-- Instructions keep frames. -/
theorem Frames.keeping_kept (f : Frames) (settings : Settings) (env : Env) :
    f.keeping.Kept settings env :=
  Facts.plain_kept (fun _ _ _ _ _ _ _ => trivial) (fun _ _ _ _ _ _ _ => trivial)
    (fun _ _ _ _ => ⟨(), trivial⟩)
    (fun _ early h => h.trans (.change (g := fun frame => { frame with early }) (fun _ => rfl) (fun _ => rfl) _))
    (fun _ _ _ h => h.trans (.recordWriting _))
    fun _ name v h => h.trans (.change
      (g := fun frame => { frame with defaults := Dict.insert name v frame.defaults }) (fun _ => rfl)
      (fun _ => rfl) _)

theorem Course.done_of_bind {α β : Type} {c : Course α} {g : α → Machine → Course β} {b : β}
    (h : c.bind g = .done b k) : ∃ a m, c = .done a m ∧ g a m = .done b k := by
  cases c with
  | done a m => exact ⟨a, m, rfl, h⟩
  | call | fallback => cases h

/-- A course follows as soon as the instances that it calls are run as described. -/
theorem Follows.of_handle {C : Permit} {post : Option Flow → Machine → Prop}
    {run : Env → Instance → Machine → Course Unit} {c : Course (Option Flow)} {flow : Option Flow}
    (h : c.Within C post) (hc : c.handle run = .done flow k)
    (hrun : ∀ env bound kept m k, C env bound kept → kept m → run env bound m = .done () k →
      kept k ∧ ∃ visits, Invokes settings (some env) bound m visits k ∧ ∀ v ∈ visits, v.Sound settings) :
    post flow k ∧ ∃ visits, Follows settings c flow visits k ∧ ∀ v ∈ visits, v.Sound settings := by
  induction h with
  | done h =>
    cases hc
    exact ⟨h, [], .done, List.forall_mem_nil _⟩
  | call h hm _ ih =>
    obtain ⟨_, k, hk, hc⟩ := Course.done_of_bind hc
    obtain ⟨hkept, visits, hv, hs⟩ := hrun _ _ _ _ _ h hm hk
    obtain ⟨hpost, visits', hv', hs'⟩ := ih k hkept hc
    exact ⟨hpost, visits ++ visits', .call hv hv', List.forall_mem_append.mpr ⟨hs, hs'⟩⟩
  | fallback => cases hc

/-! ## Runs -/

theorem run_follow (settings : Settings) (env : Env) (n : Nat) (flow : Flow) (m : Machine) :
    (follow settings env n flow).run m =
      (Rendering.execute settings env n).run (m.changeFrames (flow.apply env.scope)) := by
  cases flow with
  | next => rfl
  | jump target => rfl

theorem execute_none {n : Nat} (h : env.program.lines[m.frames.next env.scope]? = none) :
    (Rendering.execute settings env (n + 1)).run m = .done (some ()) m := by
  have hf : Rendering.frames m = .done m.frames m := rfl
  rw [Rendering.execute, Attempt.run_lift_bind, Rendering.bind_apply, hf]
  dsimp only [Course.bind]
  rw [h]
  rfl

theorem execute_some {n : Nat} {line : Line Nat Nat}
    (h : env.program.lines[m.frames.next env.scope]? = some line) :
    (Rendering.execute settings env (n + 1)).run m =
      ((Rendering.perform settings (env.atPlace line.span) line.instr).run
        (m.changeFrames fun f => f.setNext env.scope (m.frames.next env.scope + 1))).bind fun
          | none, k => .done none k
          | some flow, k => (Rendering.execute settings env n).run (k.changeFrames (flow.apply env.scope)) := by
  have hf : Rendering.frames m = .done m.frames m := rfl
  rw [Rendering.execute, Attempt.run_lift_bind, Rendering.bind_apply, hf]
  dsimp only [Course.bind]
  rw [h]
  dsimp only
  rw [Attempt.run_lift_bind]
  change ((_ >>= fun i => Rendering.step _ _ i >>= follow settings env n : Attempt Unit).run _) = _
  rw [← bind_assoc]
  refine congrArg (Course.bind · _) (funext fun o => funext fun k => ?_)
  cases o with
  | none => rfl
  | some flow => exact run_follow settings env n flow k

/-- After an instruction, the address is a later one inside the code or right behind it. -/
theorem next_apply {i : Instr Nat Nat} {place : Option Span} {address : Nat} {flow : Flow}
    (hl : env.program.lines[address]? = some ⟨i, place⟩) (hlive : env.scope < f.size)
    (hf : f.next env.scope = address + 1) (hflow : ∀ target, flow = .jump target → i.target? = some target) :
    address < (flow.apply env.scope f).next env.scope ∧
      (flow.apply env.scope f).next env.scope ≤ env.program.lines.length := by
  cases flow with
  | next =>
    have ha := (List.getElem?_eq_some_iff.mp hl).1
    exact hf ▸ ⟨Nat.lt_succ_self _, ha⟩
  | jump target =>
    rw [Flow.apply, f.next_setNext hlive]
    exact ((env.program.wellFormed.1 _ (.here _)).target _ _ hl) target (hflow target rfl)

theorem Flow.keeps_apply (flow : Flow) (scope : Nat) (f : Frames) : f.Keeps scope (flow.apply scope f) := by
  cases flow with
  | next => exact .refl f
  | jump target => exact .setNext (Nat.le_refl _) target

/-- An instance that runs with enough steps left runs as described if that is so for those it calls. -/
theorem Runs.of_execute {run : Env → Instance → Machine → Course Unit}
    (hrun : ∀ e bound m k, Own env e → Fits (some e) m.frames → run e bound m = .done () k →
      m.frames.Keeps m.frames.size k.frames ∧
        ∃ visits, Invokes settings (some e) bound m visits k ∧ ∀ v ∈ visits, v.Sound settings)
    {n : Nat} {o : Option Unit} (hfits : Fits (some env) m.frames)
    (hin : m.frames.next env.scope ≤ env.program.lines.length)
    (hn : env.program.lines.length < m.frames.next env.scope + n)
    (hk : ((Rendering.execute settings env n).run m).handle run = .done o k) :
    m.frames.Keeps env.scope k.frames ∧ ∃ addresses visits, Runs settings env m addresses visits k ∧
      addresses.Pairwise (· < ·) ∧
      (∀ address ∈ addresses, m.frames.next env.scope ≤ address ∧ address < env.program.lines.length) ∧
      ∀ v ∈ visits, v.Sound settings := by
  induction n generalizing m with
  | zero => exact absurd hn (Nat.not_lt.mpr hin)
  | succ n ih =>
    cases hl : env.program.lines[m.frames.next env.scope]? with
    | none =>
      rw [execute_none hl] at hk
      cases hk
      exact ⟨.refl _, [], [], .ends hl, .nil, List.forall_mem_nil _, List.forall_mem_nil _⟩
    | some line =>
      have ha := (List.getElem?_eq_some_iff.mp hl).1
      -- The instruction starts from frames that keep all but the address of the instance itself.
      have hset : m.frames.Keeps env.scope (m.frames.setNext env.scope (m.frames.next env.scope + 1)) :=
        .setNext (Nat.le_refl _) _
      have hlive := (hfits.keeps hset).live env rfl
      rw [execute_some hl, Course.handle_bind] at hk
      obtain ⟨flow, l, hl', hk⟩ := Course.done_of_bind hk
      obtain ⟨⟨hflow, hkept⟩, visits, hv, hs⟩ := Follows.of_handle
        ((Frames.keeping_kept _ settings (env.atPlace line.span)).perform (o := ()) line.instr _
          (Facts.plain_holds.mpr ⟨.refl _, trivial⟩)) hl' fun e bound kept m' k he hm hk => by
            obtain ⟨rfl, -, _, rfl⟩ := he
            have hm := (Facts.plain_holds.mp hm).1
            obtain ⟨hk, hv⟩ := hrun _ bound m' k ⟨line.span, rfl⟩ (((hfits.keeps hset).keeps hm).atPlace line.span) hk
            exact ⟨Facts.plain_holds.mpr ⟨hm.trans (hk.mono hm.size), trivial⟩, hv⟩
      have hkeeps := (Facts.plain_holds.mp hkept).1
      have hkeep := hset.trans (hkeeps.mono (Nat.le_of_lt hlive))
      cases flow with
      | none =>
        cases hk
        refine ⟨hkeep, [_], visits, .fails rfl hl hv, List.pairwise_singleton .., fun address haddress => ?_, hs⟩
        cases List.mem_singleton.mp haddress
        exact ⟨Nat.le_refl _, ha⟩
      | some flow =>
        have hnext := (hkeeps.next env.scope hlive).trans (m.frames.next_setNext (hfits.live env rfl) _)
        obtain ⟨hlt, hle⟩ := next_apply hl (Nat.lt_of_lt_of_le hlive hkeeps.size) hnext (hflow flow rfl)
        have happly := hkeep.trans (flow.keeps_apply env.scope l.frames)
        obtain ⟨hkeep', addresses, visits', hr, hsorted, hbound, hs'⟩ :=
          ih (m := l.changeFrames (flow.apply env.scope)) (hfits.keeps happly) hle (by
            change _ < (flow.apply env.scope l.frames).next env.scope + n
            omega) hk
        refine ⟨happly.trans hkeep', _ :: addresses, visits ++ visits', .continues rfl hl hv hr,
          List.pairwise_cons.mpr ⟨fun address h => Nat.lt_of_lt_of_le hlt (hbound address h).1, hsorted⟩,
          List.forall_mem_cons.mpr ⟨⟨Nat.le_refl _, ha⟩, fun address h =>
            ⟨Nat.le_trans (Nat.le_of_lt hlt) (hbound address h).1, (hbound address h).2⟩⟩,
          List.forall_mem_append.mpr ⟨hs, hs'⟩⟩

/-- An instance that is run where it may be called runs as described. -/
theorem Invokes.of_invoke {n : Nat} {bound : Instance}
    (hn : n + (chain caller).length = settings.depthLimit + 1) (hfits : Fits caller m.frames)
    (hk : Rendering.invoke settings n caller bound m = .done () k) :
    m.frames.Keeps m.frames.size k.frames ∧
      ∃ visits, Invokes settings caller bound m visits k ∧ ∀ v ∈ visits, v.Sound settings := by
  induction n generalizing caller bound m k with
  | zero =>
    cases caller with
    | none => cases hn
    | some env =>
      cases hk
      have hdepth : m.frames.depth env.scope = settings.depthLimit := hfits.depth_add hn
      refine ⟨.refl _, _, .refused (by omega) rfl, fun v hv => ?_⟩
      cases List.mem_singleton.mp hv
      exact ⟨hdepth, _, rfl, rfl, rfl, rfl, rfl⟩
  | succ n ih =>
    rw [Rendering.invoke, Rendering.nest, inFrame_apply] at hk
    cases he : m.enter caller bound with
    | mk env m₁ =>
    rw [he] at hk
    dsimp only at hk
    obtain ⟨_, l, hrun, hk⟩ := Course.done_of_bind hk
    rw [Rendering.runCode, Rendering.handle_bind, Rendering.bind_apply] at hrun
    obtain ⟨o, l', hexec, hend⟩ := Course.done_of_bind hrun
    cases hend
    cases hk
    have hfits' := hfits.enter he
    have hn' : n + (chain (some env)).length = settings.depthLimit + 1 := by
      cases he
      exact (Nat.succ_add_eq_add_succ n _).symm.trans hn
    have hstart : m₁.frames.next env.scope = 0 := by
      cases he
      exact (m.frames.next_enter _ _).1
    obtain ⟨hkeeps, addresses, visits, hr, hsorted, hbound, hs⟩ :=
      Runs.of_execute (fun e bound m k hown hfits hk => by
          obtain ⟨place, rfl⟩ := hown
          exact ih hn' hfits hk)
        hfits' (hstart ▸ Nat.zero_le _) (hstart ▸ Nat.lt_of_lt_of_eq (Nat.lt_succ_self _) (Nat.zero_add _).symm) hexec
    refine ⟨?_, _, .entered (fun env hc => ?_) he hr, List.forall_mem_cons.mpr ⟨⟨hfits'.depth env rfl, ?_, ?_,
      hfits'.tight, hsorted, fun address ha => (hbound address ha).2⟩, hs⟩⟩
    · cases he
      exact Frames.Keeps.leave (hkeeps.trans (.recordCompletion _))
    · cases hc
      have hdepth := hfits.depth_add hn
      omega
    · exact Nat.le.intro (hfits'.depth_add hn')
    · exact Nat.le_trans (Nat.le_add_left _ _) (Nat.le_of_eq hn')

/-- Renders end, and the depth limit is respected. Every render, of any instance with any depth limit, comes
to its end by finitely many visits, all of which are sound. -/
theorem render_ends (i : Interpreter) (retain : Bool) (room : Option Nat) (bound : Instance) (w : Workspace) :
    let settings : Settings := ⟨i.depthLimit, bound.group, i.listener.getD bound.group.listener⟩
    let start : Machine := ⟨.empty retain, [], .output room, 0, w⟩
    ∃ visits, Invokes settings none bound start visits (i.final retain room bound w) ∧
      (∀ visits' k, Invokes settings none bound start visits' k → visits' = visits ∧
        k = i.final retain room bound w) ∧
      ∀ v ∈ visits, v.Sound settings := by
  intro settings start
  obtain ⟨k, hk⟩ := invoke_done settings (i.depthLimit + 1) none bound start
  have hfinal : i.final retain room bound w = k := congrArg Course.machine hk
  rw [hfinal]
  obtain ⟨-, visits, hv, hs⟩ :=
    Invokes.of_invoke rfl (.start retain) hk
  exact ⟨visits, hv, fun _ _ h => h.unique hv, hs⟩

end Stencil
