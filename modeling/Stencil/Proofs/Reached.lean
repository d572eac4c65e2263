import Stencil.Proofs.Termination
/-! The configurations that a render comes to. An instance that runs carries out one instruction after the
other; in the middle of one it may call another instance, and goes on when that has been run. -/

namespace Stencil

/-- Where a render is. An instance runs and is about to carry out an instruction, or it carries out the
one at an address, which goes on in a given way. -/
inductive Configuration where
  | running (env : Env) (machine : Machine)
  | carrying (env : Env) (address : Nat) (course : Course (Option Flow))

/-- What a render comes to when an instance is run from a state. -/
inductive Reached (settings : Settings) (bound : Instance) (start : Machine) : Configuration → Prop where
  | root {env : Env} {m : Machine} (enter : start.enter none bound = (env, m)) :
      Reached settings bound start (.running env m)
  | fetch {env : Env} {m : Machine} {address : Nat} {line : Line Nat Nat}
      (running : Reached settings bound start (.running env m)) (here : m.frames.next env.scope = address)
      (inside : env.program.lines[address]? = some line) :
      Reached settings bound start (.carrying env address
        ((Rendering.perform settings (env.atPlace line.span) line.instr).run
          (m.changeFrames fun f => f.setNext env.scope (address + 1))))
  | call {env caller e : Env} {address : Nat} {callee : Instance} {m k : Machine}
      {rest : Machine → Course (Option Flow)}
      (carrying : Reached settings bound start (.carrying env address (.call caller callee m rest)))
      (shallow : m.frames.depth caller.scope + 1 ≤ settings.depthLimit)
      (enter : m.enter (some caller) callee = (e, k)) : Reached settings bound start (.running e k)
  | back {env caller : Env} {address : Nat} {callee : Instance} {m k : Machine}
      {rest : Machine → Course (Option Flow)} {visits : List Visit}
      (carrying : Reached settings bound start (.carrying env address (.call caller callee m rest)))
      (invokes : Invokes settings (some caller) callee m visits k) :
      Reached settings bound start (.carrying env address (rest k))
  | next {env : Env} {m : Machine} {address : Nat} {flow : Flow}
      (carrying : Reached settings bound start (.carrying env address (.done (some flow) m))) :
      Reached settings bound start (.running env (m.changeFrames (flow.apply env.scope)))

variable {settings : Settings} {bound : Instance} {start : Machine} {c : Configuration}

/-! ## Renders go on -/

/-- An instance that runs goes on to its end, and so does one in the middle of an instruction. -/
def Configuration.Going (settings : Settings) : Configuration → Prop
  | .running env m => ∃ addresses visits k, Runs settings env m addresses visits k
  | .carrying env _ course => ∃ flow visits k, Follows settings course flow visits k ∧ ∀ f ∈ flow,
      ∃ addresses visits' l, Runs settings env (k.changeFrames (f.apply env.scope)) addresses visits' l

/-- What a render comes to goes on. -/
theorem Reached.going (h : Reached settings bound start c) {visits : List Visit} {k : Machine}
    (hrender : Invokes settings none bound start visits k) : c.Going settings := by
  induction h with
  | root enter =>
    cases hrender with
    | entered _ he run =>
      cases enter.symm.trans he
      exact ⟨_, _, _, run⟩
  | fetch _ here inside ih =>
    obtain ⟨_, _, _, hr⟩ := ih
    cases hr with
    | ends outside => cases outside.symm.trans (here ▸ inside)
    | fails here' inside' does =>
      cases here.symm.trans here'
      cases inside.symm.trans inside'
      exact ⟨_, _, _, does, nofun⟩
    | continues here' inside' does run =>
      cases here.symm.trans here'
      cases inside.symm.trans inside'
      exact ⟨_, _, _, does, fun f hf => by cases hf; exact ⟨_, _, _, run⟩⟩
  | call _ shallow enter ih =>
    obtain ⟨_, _, _, hf, -⟩ := ih
    cases hf with
    | call hi =>
      cases hi with
      | refused deep => exact absurd shallow (Nat.not_le.mpr deep)
      | entered _ he run =>
        cases enter.symm.trans he
        exact ⟨_, _, _, run⟩
  | back _ invokes ih =>
    obtain ⟨_, _, _, hf, hnext⟩ := ih
    cases hf with
    | call hi hf =>
      obtain ⟨-, rfl⟩ := invokes.unique hi
      exact ⟨_, _, _, hf, hnext⟩
  | next _ ih =>
    obtain ⟨_, _, _, hf, hnext⟩ := ih
    cases hf
    exact hnext _ rfl

/-! ## Every visit is reached -/

theorem Follows.arrives {env : Env} {address : Nat} {course : Course (Option Flow)} {flow : Option Flow}
    {k : Machine} {visits : List Visit} : Follows settings course flow visits k →
      Reached settings bound start (.carrying env address course) →
      Reached settings bound start (.carrying env address (.done flow k))
  | .done, h => h
  | .call hi hf, h => hf.arrives (.back h hi)

/-- What a visit is about was come to in a render: the instance that ran, or the call that was refused. -/
def Visit.Met (settings : Settings) (bound : Instance) (start : Machine) : Visit → Prop
  | .entered env frames _ => ∃ m, m.frames = frames ∧ Reached settings bound start (.running env m)
  | .refused caller callee m _ => ∃ env address rest,
      Reached settings bound start (.carrying env address (.call caller callee m rest))

mutual

theorem Invokes.met {caller : Option Env} {callee : Instance} {m k : Machine} {visits : List Visit} :
    Invokes settings caller callee m visits k →
      (∀ e ∈ caller, (Visit.refused e callee m k).Met settings bound start) →
      (∀ env l, (∀ e ∈ caller, m.frames.depth e.scope + 1 ≤ settings.depthLimit) →
        m.enter caller callee = (env, l) → Reached settings bound start (.running env l)) →
      ∀ v ∈ visits, v.Met settings bound start
  | .refused _ _, hcall, _ => List.forall_mem_singleton.mpr (hcall _ rfl)
  | .entered shallow he hr, _, hrun =>
      List.forall_mem_cons.mpr ⟨⟨_, rfl, hrun _ _ shallow he⟩, hr.met (hrun _ _ shallow he)⟩

theorem Runs.met {env : Env} {m k : Machine} {addresses : List Nat} {visits : List Visit} :
    Runs settings env m addresses visits k → Reached settings bound start (.running env m) →
      ∀ v ∈ visits, v.Met settings bound start
  | .ends _, _ => List.forall_mem_nil _
  | .fails here inside does, h => does.met (.fetch h here inside)
  | .continues here inside does run, h =>
      have hfetch := Reached.fetch h here inside
      List.forall_mem_append.mpr ⟨does.met hfetch, run.met (.next (does.arrives hfetch))⟩

theorem Follows.met {env : Env} {address : Nat} {course : Course (Option Flow)} {flow : Option Flow}
    {k : Machine} {visits : List Visit} : Follows settings course flow visits k →
      Reached settings bound start (.carrying env address course) →
      ∀ v ∈ visits, v.Met settings bound start
  | .done, _ => List.forall_mem_nil _
  | .call hi hf, h => List.forall_mem_append.mpr
      ⟨hi.met (fun _ he => by cases he; exact ⟨_, _, _, h⟩) fun _ _ shallow he => .call h (shallow _ rfl) he,
        hf.met (.back h hi)⟩

end

/-- A render meets everything that happens in it. -/
theorem Invokes.met_root {visits : List Visit} {k : Machine} (h : Invokes settings none bound start visits k) :
    ∀ v ∈ visits, v.Met settings bound start :=
  h.met nofun fun _ _ _ he => .root he

/-! ## Contracts -/

/-- What holds when an instance is called, while it runs, and when it has been run. -/
structure Contract where
  Index : Type
  before : Index → Option Env → Instance → Machine → Prop
  during : Index → Env → Machine → Prop
  after : Index → Machine → Prop

namespace Contract

variable (K : Contract)

/-- An instance only calls in its own place, as the contract says. -/
def permit (env : Env) : Permit := fun e callee kept =>
  Own env e ∧ ∀ m, kept m → ∃ i, K.before i (some e) callee m ∧ ∀ k, K.after i k → kept k

/-- What single steps of a render keep. -/
structure Kept (settings : Settings) : Prop where
  enter : ∀ i caller callee m env k, K.before i caller callee m → m.enter caller callee = (env, k) →
    (∀ env ∈ caller, m.frames.depth env.scope + 1 ≤ settings.depthLimit) → K.during i env k
  refuse : ∀ i env callee m, K.before i (some env) callee m →
    K.after i (m.report settings env .recursionLimit [toString settings.depthLimit, callee.name] [])
  perform : ∀ i env m place instr, K.during i env m →
    ((Rendering.perform settings (env.atPlace place) instr).run m).Within (K.permit env)
      fun _ k => K.during i env k
  jump : ∀ i env m address, K.during i env m →
    K.during i env (m.changeFrames fun f => f.setNext env.scope address)
  leave : ∀ i caller callee m env k l, K.before i caller callee m → m.enter caller callee = (env, k) →
    K.during i env l → K.after i (l.leave env m.sink.position m.stack.length)

/-- What a contract says of a configuration. -/
def At : Configuration → Prop
  | .running env m => ∃ i, K.during i env m
  | .carrying env _ course => ∃ i, course.Within (K.permit env) fun _ k => K.during i env k

namespace Kept

variable {K} (h : K.Kept settings)
include h

theorem apply {i : K.Index} {env : Env} {m : Machine} (flow : Flow) (hm : K.during i env m) :
    K.during i env (m.changeFrames (flow.apply env.scope)) := by
  cases flow with
  | next => exact hm
  | jump target => exact h.jump i env m target hm

omit h

mutual

theorem invokes (h : K.Kept settings) {i : K.Index} {caller : Option Env} {callee : Instance} {m k : Machine}
    {visits : List Visit} :
    Invokes settings caller callee m visits k → K.before i caller callee m → K.after i k
  | .refused _ hk, hb => hk ▸ h.refuse _ _ _ _ hb
  | .entered shallow he hr, hb => h.leave _ _ _ _ _ _ _ hb he (h.runs hr (h.enter _ _ _ _ _ _ hb he shallow))

theorem runs (h : K.Kept settings) {i : K.Index} {env : Env} {m k : Machine} {addresses : List Nat}
    {visits : List Visit} : Runs settings env m addresses visits k → K.during i env m → K.during i env k
  | .ends _, hm => hm
  | .fails _ _ does, hm => h.follows does (h.perform _ _ _ _ _ (h.jump _ _ _ _ hm))
  | .continues _ _ does run, hm =>
      h.runs run (h.apply _ (h.follows does (h.perform _ _ _ _ _ (h.jump _ _ _ _ hm))))

theorem follows (h : K.Kept settings) {env : Env} {course : Course (Option Flow)} {flow : Option Flow}
    {k : Machine} {visits : List Visit} {post : Option Flow → Machine → Prop} :
    Follows settings course flow visits k → course.Within (K.permit env) post → post flow k
  | .done, .done hp => hp
  | .call hi hf, .call hC hm hrest =>
      have ⟨_, hb, hkeep⟩ := hC.2 _ hm
      h.follows hf (hrest _ (hkeep _ (h.invokes hi hb)))

end

include h

/-- A contract that holds when the outermost instance is called holds throughout the render. -/
theorem reached {i : K.Index} (hstart : K.before i none bound start) (hc : Reached settings bound start c) :
    K.At c := by
  induction hc with
  | root enter => exact ⟨i, h.enter _ _ _ _ _ _ hstart enter nofun⟩
  | fetch _ _ _ ih =>
    obtain ⟨i, hm⟩ := ih
    exact ⟨i, h.perform _ _ _ _ _ (h.jump _ _ _ _ hm)⟩
  | call _ shallow enter ih =>
    obtain ⟨_, hw⟩ := ih
    cases hw with
    | call hC hm =>
      obtain ⟨i, hb, -⟩ := hC.2 _ hm
      exact ⟨i, h.enter _ _ _ _ _ _ hb enter fun env he => by cases he; exact shallow⟩
  | back _ invokes ih =>
    obtain ⟨i, hw⟩ := ih
    cases hw with
    | call hC hm hrest =>
      obtain ⟨_, hb, hkeep⟩ := hC.2 _ hm
      exact ⟨i, hrest _ (hkeep _ (h.invokes invokes hb))⟩
  | next _ ih =>
    obtain ⟨i, hw⟩ := ih
    cases hw with
    | done hm => exact ⟨i, h.apply _ hm⟩

/-- An instance that is called in a render is called in the place of the one that runs, as a contract says. -/
theorem called {i : K.Index} (hstart : K.before i none bound start) {env caller : Env} {address : Nat}
    {callee : Instance} {m : Machine} {rest : Machine → Course (Option Flow)}
    (hc : Reached settings bound start (.carrying env address (.call caller callee m rest))) :
    Own env caller ∧ ∃ j, K.before j (some caller) callee m := by
  obtain ⟨_, hw⟩ := h.reached hstart hc
  cases hw with
  | call hC hm =>
    obtain ⟨j, hb, -⟩ := hC.2 _ hm
    exact ⟨hC.1, j, hb⟩

end Kept

end Contract

/-! ## Facts that last -/

namespace Facts

variable (F : Facts)

/-- Facts that hold throughout a render, as they do of all instances that run. -/
def contract : Contract where
  Index := F.Outlet
  before o caller callee m :=
    (∀ a ∈ chain caller, a.bound.Alike F.Same a.bound) ∧ callee.Alike F.Same callee ∧ F.Holds o m
  during o env m := (∀ a ∈ env.activations, a.bound.Alike F.Same a.bound) ∧ F.Holds o m
  after := F.Holds

/-- Facts that instances keep, and that last when frames are opened and closed. -/
structure Lasting (settings : Settings) : Prop where
  kept : ∀ env, (∀ a ∈ env.activations, a.bound.Alike F.Same a.bound) → F.Kept settings env
  enter : ∀ f parent template, F.frames f → F.frames (f.enter parent template).2
  setNext : ∀ f scope address, F.frames f → F.frames (f.setNext scope address)
  exit : ∀ f c scope, F.frames f → F.frames ((f.recordCompletion c).exit scope)

variable {F}

theorem Lasting.contract (h : F.Lasting settings) : F.contract.Kept settings where
  enter _ _ _ _ _ _ hb he _ := by
    cases he
    obtain ⟨hchain, hcallee, hm⟩ := hb
    exact ⟨List.forall_mem_cons.mpr ⟨hcallee, hchain⟩, h.enter _ _ _ hm.frames, hm.stack, hm.output, hm.workspace⟩
  refuse _ env _ _ hb := (h.kept env hb.1).report _ _ _ _ _ nofun hb.2.2
  perform _ env m place instr hm := by
    obtain ⟨henv, hm⟩ := hm
    refine (((h.kept (env.atPlace place) henv).perform instr m hm).mono fun _ _ hk => ⟨henv, hk.2⟩).permit ?_
    intro e callee kept ⟨he, hcallee, o, hkept⟩
    cases he
    cases hkept
    exact ⟨⟨place, rfl⟩, fun k hk => ⟨o, ⟨henv, hcallee, hk⟩, fun _ hl => hl⟩⟩
  jump _ _ _ _ hm := ⟨hm.1, h.setNext _ _ _ hm.2.frames, hm.2.stack, hm.2.output, hm.2.workspace⟩
  leave _ _ _ _ _ _ _ _ _ hm :=
    ⟨h.exit _ _ _ hm.2.frames, hm.2.stack.drop _, hm.2.output, hm.2.workspace⟩

end Facts

end Stencil
