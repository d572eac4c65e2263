import Stencil.Proofs.Link
import Stencil.Proofs.Within
/-! What is known of the states of a render, and what each instruction keeps of it. Instances are called
only by the instance that runs, and only from states of which that is known, too. -/

namespace Stencil

variable {α : Type} {C : Permit} {I : Machine → Prop}

/-- Whether an instruction may have an instance run. -/
def Instr.calls {τ ι : Type} : Instr τ ι → Bool
  | .propertyAt | .builtin _ | .render | .write _ => true
  | _ => false

namespace Rendering

/-- Carries out an instruction. -/
def perform (settings : Settings) (env : Env) (i : Instr Nat Nat) : Attempt Flow := do
  let i ← i.convertM (fun id => (constant env id : Attempt String)) (subprogram settings env)
  step settings env i

end Rendering

/-- Calls by the instance that runs, wherever in its source. -/
def Own (env e : Env) : Prop := ∃ place, e = env.atPlace place

/-! ## Facts about states -/

/-- What is known of the states of a render: of templates in values, of the frames, and, for each outlet that
may be written to, of the sink and the position that the output has come to, and of the workspace. -/
structure Facts where
  bare : Instance → Prop
  Outlet : Type
  output : Outlet → Sink → Nat → Prop
  frames : Frames → Prop
  workspace : Outlet → Sink → Workspace → Prop

namespace Facts

variable (F : Facts)

/-- The same template without its attributes, of which is known what is of all. -/
def Same (i i' : Instance) : Prop := i = i' ∧ F.bare i

structure Holds (o : F.Outlet) (m : Machine) : Prop where
  frames : F.frames m.frames
  stack : Items.Alike F.Same m.stack m.stack
  output : F.output o m.sink m.cursor
  workspace : F.workspace o m.sink m.workspace

/-- Looking up a template gives one of which is known what is of all. -/
def Resolves (settings : Settings) (action : StateM Workspace (Except Unresolved (Group × Program))) :
    Prop :=
  ∀ o s w, F.workspace o s w → F.workspace o s (action.run w).2 ∧ ∀ native program,
    (action.run w).1 = .ok (native, program) → F.bare (.ofProgram settings.group native program none)

/-- What those steps of an instance keep that call nothing. -/
structure Quiet (settings : Settings) (env : Env) : Prop where
  here : env.here.bound.Alike F.Same env.here.bound
  accept : ∀ o m text sink, F.Holds o m → m.sink.accept? text = some sink →
    F.Holds o { m with sink, cursor := sink.position }
  fail : ∀ o m text, F.Holds o m → m.sink.failed = false → m.sink.accept? text = none →
    F.Holds o (Machine.report settings env .outputFailure [] [Rendering.writerFailure] { m with sink := m.sink.refuse })
  report : ∀ o m kind arguments causes, kind ≠ .outputFailure → F.Holds o m →
    F.Holds o (m.report settings env kind arguments causes)
  storeDefault : ∀ f name v, v.Alike F.Same v → F.frames f → F.frames (f.storeDefault env.scope name v)
  lookup : ∀ f name, F.frames f → Option.Rel (Value.Alike F.Same)
    (lookupFrom f name none env.activations) (lookupFrom f name none env.activations)
  resolve : ∀ name, F.Resolves settings (settings.group.resolve name)
  resolveInherited : ∀ name, F.Resolves settings (env.here.bound.native.resolveInherited name)
  enclosed : ∀ program, (∃ index, env.program.subprogram? index = some program) →
    F.bare (Rendering.enclosed settings env program)

/-- Whether a frame runs early may be set to true, and back to what it was. -/
def MaySet (scope : Nat) (early : Bool) : Prop := early = true ∨ ∃ f, F.frames f ∧ f.isEarly scope = early

/-- What single steps of an instance keep. -/
structure Kept (settings : Settings) (env : Env) : Prop extends F.Quiet settings env where
  scratch : ∀ o m, F.Holds o m → ∃ o', F.Holds o' { m with sink := .scratch m.cursor } ∧
    ∀ k, F.Holds o' k → F.Holds o { k with sink := m.sink, cursor := m.cursor }
  setEarly : ∀ f early, F.MaySet env.scope early → F.frames f → F.frames (f.setEarly env.scope early)
  record : ∀ f output source, f.isEarly env.scope = false → F.frames f →
    F.frames (f.recordWriting ⟨env.scope, output, source⟩)

/-- An instance only calls others in its own place, and with what is known. -/
def permit (env : Env) : Permit := fun e bound kept =>
  e = env ∧ bound.Alike F.Same bound ∧ ∃ o, kept = F.Holds o

/-- Two renders that are the same one. -/
def accord (env : Env) : Accord := fun e bound e' bound' kept =>
  e = e' ∧ e = env ∧ bound.Alike F.Same bound' ∧ ∃ o, kept = fun m m' => m = m' ∧ F.Holds o m

variable {F}

theorem Same.eq {i i' : Instance} (h : i.Alike F.Same i') : i = i' := (h.mono fun _ _ h => h.1).eq

namespace Quiet

open Rendering

variable {settings : Settings} {env : Env} {o : F.Outlet}

variable (h : F.Quiet settings env)
include h

theorem resolves (callee : Callee) : F.Resolves settings
    (if callee.inherited then env.here.bound.native.resolveInherited callee.name
      else settings.group.resolve callee.name) := by
  split
  · exact h.resolveInherited _
  · exact h.resolve _

theorem writes {A : Accord} (o : F.Outlet) (text : String) :
    Matched A (fun m m' => m = m' ∧ F.Holds o m) (fun _ _ => True) (writeText settings env text)
      (writeText settings env text) := by
  intro m _ ⟨rfl, hm⟩
  rw [writeText_apply]
  split
  · exact .done ⟨trivial, rfl, hm⟩ rfl
  · rename_i hw
    cases ha : m.sink.accept? text with
    | some sink => exact .done ⟨trivial, rfl, h.accept _ _ _ _ hm ha⟩ rfl
    | none =>
      have hfailed : m.sink.failed = false := by
        rw [Bool.or_eq_true, not_or, Bool.not_eq_true] at hw
        exact hw.1
      exact .done ⟨trivial, rfl, h.fail _ _ _ hm hfailed ha⟩ rfl

/-- An instance beside itself. -/
def link (A : Accord) : Link A where
  settings := settings
  env := env
  env' := env
  bare := F.Same
  Outlet := F.Outlet
  state o m m' := m = m' ∧ F.Holds o m
  allowed kind := kind ≠ .outputFailure
  visited place := place = env.place
  found _ r := ∀ native program, r = .ok (native, program) →
    F.bare (.ofProgram settings.group native program none)
  inner program := ∃ index, env.program.subprogram? index = some program
  abreast := .refl env
  here := h.here
  program_eq _ _ hi := congrArg Instance.program hi.1
  usual := ⟨nofun, nofun, nofun⟩
  placed := rfl
  writes o _ text hp := hp ▸ h.writes o text
  report _ _ _ _ _ _ _ hp hk := fun ⟨he, hm⟩ => hp ▸ he ▸ ⟨rfl, h.report _ _ _ _ _ hk hm⟩
  keepDefault o m _ name v v' hv := fun ⟨he, hm⟩ => by
    cases he
    cases (hv.mono fun _ _ h => h.1).eq
    exact ⟨rfl, h.storeDefault _ name v hv hm.frames, hm.stack, hm.output, hm.workspace⟩
  lookup _ m _ name := fun ⟨he, hm⟩ => he ▸ h.lookup _ name hm.frames
  resolve callee o := .modifyGet (fun _ => rfl) fun m _ ⟨he, hm⟩ => by
    cases he
    have hr := h.resolves callee _ _ _ hm.workspace
    exact ⟨⟨rfl, hr.2⟩, rfl, hm.frames, hm.stack, hm.output, hr.1⟩
  fresh _ _ _ hr := ⟨rfl, hr _ _ rfl⟩
  enclosed _ hp := ⟨rfl, h.enclosed _ hp⟩

variable {Q : α → α → Prop} {x : Rendering α}

omit h in
/-- What stays beside itself without calls keeps what is known. -/
theorem of_link (h : F.Quiet settings env) (hx : (h.link fun _ _ _ _ _ => False).Matched Q x x) :
    Within C (F.Holds o) (fun a => Q a a) x :=
  fun m hm => (hx o m m ⟨rfl, hm⟩).within rfl nofun fun _ _ ⟨hq, _, hm⟩ => ⟨hq, hm⟩

omit h in
theorem of_attempted {x : Attempt α} (h : F.Quiet settings env)
    (hx : (h.link fun _ _ _ _ _ => False).Attempted Q x x) :
    Attempt.Within C (F.Holds o) (fun a => Q a a) x :=
  (of_link h hx).mono fun p hp a ha => by
    cases ha
    cases hp with
    | some hq => exact hq

/-! ## Operands -/

omit h

theorem push {v : Value} (hv : v.Alike F.Same v) : Within C (F.Holds o) anything (push v) :=
  .modify fun _ hm => ⟨hm.frames, .cons hv hm.stack, hm.output, hm.workspace⟩

theorem pop : Within C (F.Holds o) (fun v => v.Alike F.Same v) pop := fun m hm => by
  unfold Rendering.pop
  have hs := hm.stack
  split
  · exact .fallback (.done ⟨.null, hm⟩)
  · rename_i he
    rw [he] at hs
    cases hs with
    | cons hv hs => exact .done ⟨hv, hm.frames, hs, hm.output, hm.workspace⟩

theorem popMany (n : Nat) : Within C (F.Holds o) (fun vs => Items.Alike F.Same vs vs) (popMany n) := fun m hm => by
  have hrest : (Course.done (m.stack.take n).reverse { m with stack := m.stack.drop n }).Within C
      fun vs k => Items.Alike F.Same vs vs ∧ F.Holds o k :=
    .done ⟨(hm.stack.take n).reverse, hm.frames, hm.stack.drop n, hm.output, hm.workspace⟩
  unfold Rendering.popMany
  dsimp only
  split
  · exact hrest
  · exact .fallback hrest

theorem textOf (v : Value) : Within C I anything (textOf v) := by
  unfold Rendering.textOf
  split
  · exact .pure trivial
  · exact .bind .fallback fun _ _ => .pure trivial

theorem instanceOf {v : Value} (hv : v.Alike F.Same v) :
    Within C I (fun t => Option.Rel (Instance.Alike F.Same) t t) (instanceOf v) := by
  cases hv with
  | template hi => exact .pure (.some hi)
  | _ => exact .bind .fallback fun _ _ => .pure .none

theorem instancesOf : {vs : List Value} → Items.Alike F.Same vs vs →
    Attempt.Succeeds C I (fun ts => List.Forall₂ (Option.Rel (Instance.Alike F.Same)) ts ts)
      (vs.mapM fun v => (Rendering.instanceOf v : Attempt (Option Instance)))
  | [], _ => .pure .nil
  | _ :: _, .cons hv hvs => by
      rw [List.mapM_cons]
      exact .bind (.lift (instanceOf hv)) fun _ ht => .bind (instancesOf hvs) fun _ hts => .pure (.cons ht hts)

theorem pairs : (vs : List Value) → Items.Alike F.Same vs vs →
    Within C I (fun es => Entries.Alike F.Same es es) (pairs vs)
  | name :: _ :: rest, .cons _ (.cons hv hvs) =>
      .bind (textOf name) fun _ _ => .bind (pairs rest hvs) fun _ hes => .pure (.cons _ hv hes)
  | [], _ => .pure .nil
  | [_], _ => .pure .nil

theorem popArguments (passing : Passing) :
    Within C (F.Holds o) (fun p => Link.PassedAlike F.Same p p) (popArguments passing) := by
  cases passing with
  | positional n => exact .map (popMany n) fun _ hvs => .positional hvs
  | named n => exact .bind (popMany _) fun vs hvs => .bind (pairs vs hvs) fun _ hes => .pure (.named hes)

theorem constant (id : Nat) : Within C I anything (constant env id) := by
  unfold Rendering.constant
  split
  · exact .pure trivial
  · exact .bind .fallback fun _ _ => .pure trivial

include h

theorem subprogram (index : Nat) :
    Attempt.Within C (F.Holds o) (fun p => ∃ index, env.program.subprogram? index = some p)
      (subprogram settings env index) := by
  unfold Rendering.subprogram
  split
  · exact .pure ⟨index, ‹_›⟩
  · exact .bind (.lift .fallback) fun _ _ =>
      .bind (.lift (.modify fun _ hm => h.report _ _ _ _ _ nofun hm)) fun _ _ => .failure

/-! ## Instructions that call nothing -/

theorem convert (i : Instr Nat Nat) :
    Attempt.Within C (F.Holds o) (fun j : Instr String Program => j.target? = i.target? ∧ j.calls = i.calls ∧
        ∀ p ∈ j.inner?, ∃ index, env.program.subprogram? index = some p)
      (i.convertM (fun id => (Rendering.constant env id : Attempt String)) (Rendering.subprogram settings env)) := by
  have hs (id : Nat) : Attempt.Within C (F.Holds o) anything (Rendering.constant env id : Attempt String) :=
    .lift (constant id)
  have hnone : ∀ p ∈ (none : Option Program), ∃ index, env.program.subprogram? index = some p :=
    fun _ hp => by cases hp
  cases i with
  | text | pushText | pushAttribute | property | storeDefault => exact .map (hs _) fun _ _ => ⟨rfl, rfl, hnone⟩
  | create | jumpIfSet => exact .bind (hs _) fun _ _ => .pure ⟨rfl, rfl, hnone⟩
  | createAnonymous => exact .map (h.subprogram _) fun p hp => ⟨rfl, rfl, fun _ he => by cases he; exact hp⟩
  | _ => exact .pure ⟨rfl, rfl, hnone⟩

/-- An instruction that calls nothing only jumps to its target. -/
theorem step_quiet {i : Instr String Program} (hi : i.calls = false)
    (hp : ∀ p ∈ i.inner?, ∃ index, env.program.subprogram? index = some p) :
    Attempt.Within C (F.Holds o) (fun flow => ∀ target, flow = .jump target → i.target? = some target)
      (step settings env i) := by
  have hnext {x : Rendering Unit} (hx : Within C (F.Holds o) anything x) : Attempt.Within C (F.Holds o)
      (fun flow => ∀ target, flow = .jump target → i.target? = some target)
      ((liftM x : Attempt Unit) >>= fun _ => pure Flow.next) :=
    .bind (.lift hx) fun _ _ => .pure nofun
  cases i with
  | propertyAt | builtin | render | write => cases hi
  | text s => exact hnext (h.of_link ((h.link _).writeText s))
  | pushText s => exact hnext (push (.text s))
  | pushTruth b => exact hnext (push (.bool b))
  | pushAttribute name =>
    exact .bind (.lift (h.of_link ((h.link _).readAttribute name))) fun _ hv => hnext (push hv)
  | property name =>
    exact .bind (.lift pop) fun _ hv => .bind (.lift (h.of_link ((h.link _).readProperty hv name)))
      fun _ hv => hnext (push hv)
  | list count => exact .bind (.lift (popMany count)) fun _ hvs => hnext (push (.list hvs))
  | create name inherited passing =>
    exact .bind (.lift (popArguments passing)) fun _ hp =>
      .bind (h.of_attempted ((h.link _).instantiate _ hp (.inl fun _ => id)))
        fun _ hb => hnext (push (.template hb.1))
  | createComputed passing =>
    exact .bind (.lift (popArguments passing)) fun _ hp => .bind (.lift pop) fun v _ =>
      .bind (.lift (textOf v)) fun name _ =>
        .bind (h.of_attempted ((h.link _).instantiateComputed (fun _ => id) name hp))
          fun _ hb => hnext (push (.template hb))
  | createAnonymous program =>
    exact hnext (push (.template ((h.link fun _ _ _ _ _ => False).enclosed_alike (hp program rfl))))
  | map count =>
    exact .bind (.lift (popMany count)) fun _ hvs => .bind (instancesOf hvs).within fun _ hts =>
      .bind (.lift pop) fun _ hv =>
        .bind (.lift (h.of_link ((h.link _).mapValue hts (.inl nofun) hv))) fun _ hv => hnext (push hv)
  | not => exact .bind (.lift pop) fun _ _ => hnext (push (.bool _))
  | and | or => exact .bind (.lift pop) fun _ _ => .bind (.lift pop) fun _ _ => hnext (push (.bool _))
  | jump target => exact .pure fun _ ht => by cases ht; rfl
  | jumpUnless target =>
    refine .bind (.lift pop) fun v _ => .pure fun t ht => ?_
    split at ht <;> cases ht
    rfl
  | jumpIfSet name target =>
    refine .pure fun t ht => ?_
    split at ht <;> cases ht
    rfl
  | storeDefault name =>
    exact .bind (.lift pop) fun _ hv => hnext (h.of_link ((h.link _).storeDefault name hv))

theorem perform_quiet {i : Instr Nat Nat} (hi : i.calls = false) :
    Attempt.Within C (F.Holds o) (fun flow => ∀ target, flow = .jump target → i.target? = some target)
      (perform settings env i) :=
  .bind (h.convert i) fun _ ⟨ht, hc, hp⟩ => ht ▸ h.step_quiet (hc.trans hi) hp

end Quiet

namespace Kept

open Rendering Quiet

variable {settings : Settings} {env : Env} {o : F.Outlet}

variable (h : F.Kept settings env)
include h

theorem captures {A : Accord} {x y : Rendering Unit}
    (hx : ∀ o, Matched A (fun m m' => m = m' ∧ F.Holds o m) (fun _ _ => True) x y) (o : F.Outlet) :
    Matched A (fun m m' => m = m' ∧ F.Holds o m) Eq (capture x) (capture y) := by
  intro m _ ⟨rfl, hm⟩
  obtain ⟨o', hscratch, hback⟩ := h.scratch _ _ hm
  rw [capture_apply, capture_apply]
  refine (hx o' _ _ ⟨rfl, hscratch⟩).bind fun _ _ k _ ⟨_, he, hk⟩ => ?_
  cases he
  exact .done ⟨rfl, rfl, hback k hk⟩ rfl

/-- It calls what it calls. -/
def bond : Bond (F.accord env) where
  toLink := h.toQuiet.link _
  near := Eq
  early b b' := b = b' ∧ F.MaySet env.scope b
  captures := h.captures
  positions _ _ _ hm := congrArg (fun m : Machine => m.sink.position) hm.1
  early_true := ⟨rfl, .inl rfl⟩
  isEarly _ m _ hm := ⟨congrArg (fun m : Machine => m.frames.isEarly env.scope) hm.1, .inr ⟨m.frames, hm.2.frames, rfl⟩⟩
  setEarly o m _ early _ he := fun ⟨hm, hk⟩ => by
    obtain ⟨rfl, he⟩ := he
    cases hm
    exact ⟨rfl, h.setEarly _ early he hk.frames, hk.stack, hk.output, hk.workspace⟩
  record o m _ output output' source hstart hstop := fun ⟨hm, hk⟩ => by
    obtain ⟨start, stop⟩ := output
    obtain ⟨start', stop'⟩ := output'
    cases hstart
    cases hstop
    cases hm
    refine ⟨rfl, ?_, hk.stack, hk.output, hk.workspace⟩
    simp only [Machine.changeFrames]
    split
    · exact hk.frames
    · exact h.record _ _ _ (Bool.eq_false_iff.mpr ‹_›) hk.frames
  call o _ _ _ hp hb := hp ▸ ⟨rfl, rfl, hb, o, rfl⟩

variable {Q : α → α → Prop} {x : Rendering α}

omit h in
/-- What stays beside itself keeps what is known, also where it calls. -/
theorem of_bond (h : F.Kept settings env) (hx : h.bond.Matched Q x x) :
    Within (F.permit env) (F.Holds o) (fun a => Q a a) x := fun m hm => by
  refine (hx o m m ⟨rfl, hm⟩).within rfl (fun e bound bound' kept hA => ?_) fun _ _ ⟨hq, _, hm⟩ => ⟨hq, hm⟩
  obtain ⟨-, hown, hb, o', rfl⟩ := hA
  cases Same.eq hb
  exact ⟨F.Holds o', ⟨hown, hb, o', rfl⟩, fun _ => ⟨And.right, fun hk => ⟨rfl, hk⟩⟩⟩

theorem popOption (present : Bool) :
    Within (F.permit env) (F.Holds o) anything (popOption settings env present) := by
  unfold Rendering.popOption
  split
  · exact .bind pop fun v hv => .bind (h.of_bond (h.bond.renderText hv)) fun _ _ => .pure trivial
  · exact .pure trivial

theorem popOptions (set : OptionSet) :
    Within (F.permit env) (F.Holds o) anything (popOptions settings env set) :=
  .bind (h.popOption _) fun _ _ => .bind (h.popOption _) fun _ _ => .bind (h.popOption _) fun _ _ => .pure trivial

/-! ## Instructions -/

/-- An instruction that may call goes on with the next one. -/
theorem step_calls {i : Instr String Program} (hi : i.calls = true) :
    Attempt.Succeeds (F.permit env) (F.Holds o) (fun flow => flow = .next) (step settings env i) := by
  have hnext {x : Rendering Unit} (hx : Within (F.permit env) (F.Holds o) anything x) :
      Attempt.Succeeds (F.permit env) (F.Holds o) (fun flow => flow = .next)
        ((liftM x : Attempt Unit) >>= fun _ => pure Flow.next) :=
    .bind (.lift hx) fun _ _ => .pure rfl
  cases i with
  | propertyAt =>
    exact .bind (.lift pop) fun _ hkey => .bind (.lift pop) fun _ hv =>
      .bind (.lift (h.of_bond (h.bond.readPropertyAt hv hkey))) fun _ hv => hnext (push hv)
  | builtin function =>
    exact .bind (.lift pop) fun _ hv => .bind (.lift (h.of_bond (h.bond.applyBuiltin function hv)))
      fun _ hv => hnext (push hv)
  | render =>
    exact .bind (.lift pop) fun _ hv => .bind (.lift (h.of_bond (h.bond.renderEarly hv)))
      fun _ _ => hnext (push (.text _))
  | write set =>
    exact .bind (.lift (h.popOptions set)) fun options _ => .bind (.lift pop) fun _ hv =>
      hnext (h.of_bond (h.bond.writeExpression options hv))
  | _ => cases hi

theorem perform_calls {i : Instr Nat Nat} (hi : i.calls = true) :
    Attempt.Succeeds (F.permit env) (F.Holds o) (fun flow => flow = .next) (perform settings env i) := by
  cases i with
  | propertyAt | builtin | render | write =>
    rw [perform, Instr.convertM, pure_bind]
    exact h.step_calls rfl
  | _ => cases hi

/-- An instruction keeps what is known and only jumps to its target. -/
theorem perform (i : Instr Nat Nat) :
    Attempt.Within (F.permit env) (F.Holds o) (fun flow => ∀ target, flow = .jump target → i.target? = some target)
      (perform settings env i) := by
  cases hi : i.calls with
  | false => exact h.perform_quiet hi
  | true =>
    refine (h.perform_calls hi).within.mono fun flow hflow a ha target ht => ?_
    cases (hflow a ha).symm.trans ht

end Kept

/-! ## Facts about frames and outputs -/

/-- Facts about frames and about what is written, wherever values come from. -/
def plain (Outlet : Type) (output : Outlet → Sink → Nat → Prop) (frames : Frames → Prop) : Facts where
  bare _ := True
  Outlet := Outlet
  output := output
  frames := frames
  workspace _ _ _ := True

variable {Outlet : Type} {output : Outlet → Sink → Nat → Prop} {frames : Frames → Prop}

theorem plain_same (i : Instance) : (plain Outlet output frames).Same i i := ⟨rfl, trivial⟩

theorem plain_holds {o : Outlet} {m : Machine} :
    (plain Outlet output frames).Holds o m ↔ frames m.frames ∧ output o m.sink m.cursor :=
  ⟨fun h => ⟨h.frames, h.output⟩, fun h => ⟨h.1, .refl plain_same _, h.2, trivial⟩⟩

theorem plain_quiet {settings : Settings} {env : Env}
    (accept : ∀ o s c text s', output o s c → s.accept? text = some s' → output o s' s'.position)
    (fail : ∀ o s c text, output o s c → s.failed = false → s.accept? text = none → output o s.refuse c)
    (storeDefault : ∀ f name v, frames f → frames (f.storeDefault env.scope name v)) :
    (plain Outlet output frames).Quiet settings env where
  here := .refl plain_same _
  accept _ _ _ _ hm ha := ⟨hm.frames, hm.stack, accept _ _ _ _ _ hm.output ha, trivial⟩
  fail _ _ _ hm hf ha := ⟨hm.frames, hm.stack, fail _ _ _ _ hm.output hf ha, trivial⟩
  report _ _ _ _ _ _ hm := ⟨hm.frames, hm.stack, hm.output, trivial⟩
  storeDefault f name v _ := storeDefault f name v
  lookup _ _ _ := Value.Alike.refl_option plain_same _
  resolve _ _ _ _ _ := ⟨trivial, fun _ _ _ => trivial⟩
  resolveInherited _ _ _ _ _ := ⟨trivial, fun _ _ _ => trivial⟩
  enclosed _ _ := trivial

theorem plain_kept {settings : Settings} {env : Env}
    (accept : ∀ o s c text s', output o s c → s.accept? text = some s' → output o s' s'.position)
    (fail : ∀ o s c text, output o s c → s.failed = false → s.accept? text = none → output o s.refuse c)
    (scratch : ∀ o s c, output o s c → ∃ o', output o' (.scratch c) c)
    (setEarly : ∀ f early, frames f → frames (f.setEarly env.scope early))
    (record : ∀ f output source, frames f → frames (f.recordWriting ⟨env.scope, output, source⟩))
    (storeDefault : ∀ f name v, frames f → frames (f.storeDefault env.scope name v)) :
    (plain Outlet output frames).Kept settings env where
  toQuiet := plain_quiet accept fail storeDefault
  scratch _ m hm := by
    obtain ⟨o', hscratch⟩ := scratch _ _ _ hm.output
    exact ⟨o', ⟨hm.frames, hm.stack, hscratch, trivial⟩, fun _ hk => ⟨hk.frames, hk.stack, hm.output, trivial⟩⟩
  setEarly f early _ := setEarly f early
  record f output source _ := record f output source

end Facts

end Stencil
