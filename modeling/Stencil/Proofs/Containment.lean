import Stencil.Proofs.Reached
/-! Aborts are contained. Whatever becomes of an instance that is called, its caller finds operands, frames
and output as they were, with what the instance wrote behind them, and goes on. -/

namespace Stencil

/-! ## What is written -/

/-- A sink that has what another one had, with more text behind, which it counts. -/
def Sink.After (base s : Sink) : Prop :=
  ∃ texts, s.pieces = texts ++ base.pieces ∧ s.origin = base.origin ∧
    s.written = base.written + (String.join texts.reverse).length

theorem Sink.After.refl (s : Sink) : s.After s := ⟨[], rfl, rfl, rfl⟩

theorem Sink.After.accept {base s s' : Sink} {text : String} (h : base.After s)
    (ha : s.accept? text = some s') : base.After s' := by
  obtain ⟨texts, hp, ho, hw⟩ := h
  have hs : s'.pieces = text :: s.pieces ∧ s'.origin = s.origin ∧ s'.written = s.written + text.length := by
    unfold Sink.accept? at ha
    split at ha <;> cases ha
    exact ⟨rfl, rfl, rfl⟩
  refine ⟨text :: texts, hs.1.trans (congrArg _ hp), hs.2.1.trans ho, ?_⟩
  rw [hs.2.2, hw, List.reverse_cons, String.join_append, String.length_append, Nat.add_assoc]
  simp [String.join]

theorem Sink.After.trans {base s s' : Sink} (h : base.After s) (h' : s.After s') : base.After s' := by
  obtain ⟨texts, hp, ho, hw⟩ := h
  obtain ⟨texts', hp', ho', hw'⟩ := h'
  refine ⟨texts' ++ texts, by rw [hp', hp, List.append_assoc], ho'.trans ho, ?_⟩
  rw [hw', hw, List.reverse_append, String.join_append, String.length_append, Nat.add_assoc]

/-- A sink that a render started with counts its text. -/
theorem Sink.After.written_eq {room : Option Nat} {s : Sink} (h : (Sink.output room).After s) :
    s.written = s.text.length := by
  obtain ⟨texts, hp, -, hw⟩ := h
  rw [hw, Sink.text, hp]
  simp [Sink.output]

/-- Text is written behind what was there, and positions are those behind the last text. -/
def Facts.written : Facts := .plain Sink (fun base s cursor => base.After s ∧ cursor = s.position) fun _ => True

theorem Facts.written_lasting (settings : Settings) : Facts.written.Lasting settings where
  kept _ _ := plain_kept (fun _ _ _ _ _ h ha => ⟨h.1.accept ha, rfl⟩) (fun _ _ _ _ h _ _ => ⟨h.1, h.2⟩)
    (fun _ _ cursor _ => ⟨.scratch cursor, .refl _, rfl⟩) (fun _ _ h => h) (fun _ _ _ h => h) fun _ _ _ h => h
  enter _ _ _ h := h
  setNext _ _ _ h := h
  exit _ _ _ h := h

variable {settings : Settings} {bound : Instance} {start : Machine}

/-- What running an instance writes comes behind what was there. -/
theorem Invokes.after {caller : Option Env} {callee : Instance} {m k : Machine} {visits : List Visit}
    (h : Invokes settings caller callee m visits k) (hm : m.cursor = m.sink.position) :
    m.sink.After k.sink ∧ k.cursor = k.sink.position := by
  have hb : Facts.written.contract.before m.sink caller callee m :=
    ⟨fun _ _ => .refl Facts.plain_same _, .refl Facts.plain_same _, Facts.plain_holds.mpr ⟨trivial, .refl _, hm⟩⟩
  exact (Facts.plain_holds.mp ((Facts.written_lasting settings).contract.invokes h hb)).2

/-! ## Frames -/

theorem Frames.change_push (f : Frames) (frame : Frame) (g : Frame → Frame) :
    ({ f with frames := f.frames.push frame } : Frames).change f.size g =
      { f with frames := f.frames.push (g frame) } := by
  have hm : (f.frames.push frame).modify f.frames.size g = f.frames.push (g frame) := by
    refine Array.ext (by simp) fun i h _ => ?_
    rw [Array.getElem_modify, Array.getElem_push, Array.getElem_push]
    by_cases hi : i < f.frames.size
    · rw [if_neg (Nat.ne_of_gt hi), dif_pos hi, dif_pos hi]
    · have he : f.frames.size = i := by
        rw [Array.size_modify, Array.size_push] at h
        omega
      rw [if_pos he, dif_neg hi, dif_neg hi]
  simp only [change, size, hm]

theorem Frames.depth_push (f : Frames) (frame : Frame) :
    ({ f with frames := f.frames.push frame } : Frames).depth f.size = frame.depth := by
  rw [depth, get?, size, Array.getElem?_push_size]
  rfl

/-- Frames with one more at the end, at a depth. -/
def Frames.Topped (f : Frames) (depth : Nat) (g : Frames) : Prop :=
  ∃ frame : Frame, frame.depth = depth ∧ g = { f with frames := f.frames.push frame }

namespace Frames.Topped

variable {f g : Frames} {depth : Nat}

theorem change (h : f.Topped depth g) {c : Frame → Frame} (hc : ∀ frame, (c frame).depth = frame.depth) :
    f.Topped depth (g.change f.size c) := by
  obtain ⟨frame, rfl, rfl⟩ := h
  exact ⟨c frame, hc frame, f.change_push frame c⟩

theorem retained (h : f.Topped depth g) : g.retained = f.retained := by
  obtain ⟨frame, -, rfl⟩ := h
  rfl

theorem fits {env : Env} (h : f.Topped env.callers.length g) (hs : env.scope = f.size)
    (hf : f.size = env.callers.length) : Fits (some env) g := by
  obtain ⟨frame, hd, rfl⟩ := h
  have hlive : f.size < (f.frames.push frame).size := Nat.lt_of_lt_of_eq (Nat.lt_succ_self _) (Array.size_push _).symm
  refine ⟨fun e he => ?_, fun e he => ?_, fun _ => ?_⟩
  · cases he
    exact hs ▸ hlive
  · cases he
    rw [hs, f.depth_push, hd]
  · exact (Array.size_push _).trans (congrArg (· + 1) hf)

/-- Leaving the frame behind the others drops it. -/
theorem exit (h : f.Topped depth g) (hr : f.retained = false) (c : Completion) :
    (g.recordCompletion c).exit f.size = f := by
  obtain ⟨frame, -, rfl⟩ := h
  simp [recordCompletion, Frames.exit, Frames.size, hr]
  rw [← hr]

end Frames.Topped

/-- What is known of the frames while the instance behind them carries out an instruction. -/
def Frames.topping (f : Frames) (depth : Nat) : Facts := .plain Unit (fun _ _ _ => True) (f.Topped depth)

theorem Frames.topping_kept {f : Frames} (hf : f.retained = false) (depth : Nat) (settings : Settings)
    {env : Env} (hs : env.scope = f.size) : (f.topping depth).Kept settings env := by
  refine Facts.plain_kept (fun _ _ _ _ _ _ _ => trivial) (fun _ _ _ _ _ _ _ => trivial)
    (fun _ _ _ _ => ⟨(), trivial⟩) (fun g early h => ?_) (fun g output source h => ?_) fun g name v h => ?_
  · exact hs ▸ h.change (c := fun frame => { frame with early }) fun _ => rfl
  · rw [recordWriting, if_neg (by simp [h.retained, hf])]
    exact h
  · exact hs ▸ h.change (c := fun frame => { frame with defaults := Dict.insert name v frame.defaults })
      fun _ => rfl

/-- An instance that runs has its frame behind those that were there, and leaves them as they were. -/
def restoring (settings : Settings) : Contract where
  Index := Frames
  before f caller _ m := m.frames = f ∧ f.retained = false ∧ Fits caller f ∧
    (chain caller).length ≤ settings.depthLimit + 1
  during f env m := env.scope = f.size ∧ f.retained = false ∧ f.size = env.callers.length ∧
    env.callers.length ≤ settings.depthLimit ∧ f.Topped env.callers.length m.frames
  after f m := m.frames = f

theorem restoring_kept (settings : Settings) : (restoring settings).Kept settings where
  enter f caller _ m env k hb he shallow := by
    obtain ⟨rfl, hr, hfits, -⟩ := hb
    have hdepth := (hfits.enter he).depth env rfl
    cases he
    refine ⟨rfl, hr, hfits.tight hr, ?_, _, (m.frames.depth_push _).symm.trans hdepth, rfl⟩
    cases caller with
    | none => exact Nat.zero_le _
    | some e =>
      refine Nat.le_trans (Nat.le_of_eq ?_) (shallow e rfl)
      exact congrArg (· + 1) (hfits.depth e rfl).symm
  refuse _ _ _ _ hb := hb.1
  perform f env m place instr hm := by
    obtain ⟨hs, hr, hsize, hlen, htop⟩ := hm
    have htopping : (f.topping env.callers.length).Kept settings (env.atPlace place) :=
      Frames.topping_kept hr _ settings hs
    refine ((htopping.perform (o := ()) instr m (Facts.plain_holds.mpr ⟨htop, trivial⟩)).mono fun _ _ hk =>
        ⟨hs, hr, hsize, hlen, (Facts.plain_holds.mp hk.2).1⟩).permit ?_
    intro e callee kept ⟨he, _, _, hkept⟩
    cases he
    cases hkept
    refine ⟨⟨place, rfl⟩, fun l hl => ?_⟩
    have htop := (Facts.plain_holds.mp hl).1
    refine ⟨l.frames, ⟨rfl, htop.retained.trans hr, (htop.fits hs hsize).atPlace place, Nat.succ_le_succ hlen⟩,
      fun k hk => Facts.plain_holds.mpr ⟨?_, trivial⟩⟩
    exact (hk : k.frames = l.frames) ▸ htop
  jump f env m address hm :=
    ⟨hm.1, hm.2.1, hm.2.2.1, hm.2.2.2.1,
      hm.1 ▸ hm.2.2.2.2.change (c := fun frame => { frame with next := address }) fun _ => rfl⟩
  leave f _ _ m _ _ l hb he hl := by
    obtain ⟨hs, hr, -, -, htop⟩ := hl
    change ((l.frames.recordCompletion _).exit _) = f
    rw [hs]
    exact htop.exit hr _

/-- The instances that a render calls are called where they may be. -/
theorem restoring_start (bound : Instance) (stack : List Value) (sink : Sink) (cursor : Nat) (w : Workspace) :
    (restoring settings).before (.empty false) none bound ⟨.empty false, stack, sink, cursor, w⟩ :=
  ⟨rfl, rfl, .start false, Nat.zero_le _⟩

/-- Running an instance that may be called is sound, and takes no operands of its caller. -/
theorem Invokes.stack_eq {caller : Option Env} {callee : Instance} {m k : Machine} {visits : List Visit}
    (h : Invokes settings caller callee m visits k)
    (hb : (restoring settings).before m.frames caller callee m) :
    k.stack = m.stack ∧ ∀ v ∈ visits, v.Sound settings := by
  obtain ⟨-, -, hfits, hlen⟩ := hb
  obtain ⟨r⟩ := Reading.nonempty
  obtain ⟨_, _, k', _, hk, -, hleft⟩ := invoke_ends r settings
    (settings.depthLimit + 1 - (chain caller).length) caller callee (m := m) rfl
  obtain ⟨-, visits', h', hs⟩ := Invokes.of_invoke (Nat.sub_add_cancel hlen) hfits hk
  obtain ⟨rfl, rfl⟩ := h.unique h'
  exact ⟨hleft.keeps.stack, hs⟩

/-! ## Going on -/

/-- In frames that are not retained, the address of the next instruction of an instance. -/
def aimed (scope address : Nat) : Facts :=
  .plain Unit (fun _ _ _ => True) fun f => f.retained = false ∧ f.next scope = address

theorem aimed_kept (settings : Settings) (env : Env) (scope address : Nat) :
    (aimed scope address).Kept settings env :=
  Facts.plain_kept (fun _ _ _ _ _ _ _ => trivial) (fun _ _ _ _ _ _ _ => trivial)
    (fun _ _ _ _ => ⟨(), trivial⟩)
    (fun f _ h => ⟨h.1, (f.next_setEarly _ _ _).trans h.2⟩)
    (fun f _ _ h => ⟨(f.retained_recordWriting _).trans h.1, (f.next_recordWriting _ _).trans h.2⟩)
    fun f _ _ h => ⟨h.1, (f.next_storeDefault _ _ _ _).trans h.2⟩

/-- A call in a render leaves frames as they were. -/
theorem Reached.call_frames {f : Frames} (hstart : (restoring settings).before f none bound start)
    {env caller : Env} {address : Nat} {callee : Instance} {m k : Machine}
    {rest : Machine → Course (Option Flow)} {visits : List Visit}
    (h : Reached settings bound start (.carrying env address (.call caller callee m rest)))
    (hi : Invokes settings (some caller) callee m visits k) :
    (restoring settings).before m.frames (some caller) callee m ∧ k.frames = m.frames := by
  obtain ⟨-, j, hb⟩ := (restoring_kept settings).called hstart h
  obtain rfl : m.frames = j := hb.1
  exact ⟨hb, (restoring_kept settings).invokes hi hb⟩

/-- An instance goes on with the next instruction, and frames keep its address in the meantime. -/
def Resumes (scope address : Nat) (course : Course (Option Flow)) : Prop :=
  course.Within (fun _ _ kept => kept = (aimed scope (address + 1)).Holds ())
    fun flow k => flow = some .next ∧ k.frames.next scope = address + 1

theorem Resumes.back {scope address : Nat} {caller : Env} {callee : Instance} {m k : Machine}
    {rest : Machine → Course (Option Flow)} (h : Resumes scope address (.call caller callee m rest))
    (hk : k.frames = m.frames) : Resumes scope address (rest k) := by
  cases h with
  | call hkept hm hrest =>
    cases hkept
    refine hrest _ (Facts.plain_holds.mpr ⟨?_, trivial⟩)
    rw [hk]
    exact (Facts.plain_holds.mp hm).1

theorem Follows.resumes {f : Frames} (hstart : (restoring settings).before f none bound start) {env : Env}
    {address : Nat} {course : Course (Option Flow)} {flow : Option Flow} {k : Machine} {visits : List Visit} :
    Follows settings course flow visits k →
      Reached settings bound start (.carrying env address course) → Resumes env.scope address course →
      flow = some .next ∧ k.frames.next env.scope = address + 1
  | .done, _, .done hp => hp
  | .call hi hf, h, hr => hf.resumes hstart (h.back hi) (hr.back (h.call_frames hstart hi).2)

/-- An instruction that has instances run goes on with the next one. -/
theorem Reached.resumes {f : Frames} (hstart : (restoring settings).before f none bound start)
    {env : Env} {address : Nat} {course : Course (Option Flow)}
    (h : Reached settings bound start (.carrying env address course)) :
    Resumes env.scope address course ∨ course.Within .none fun _ _ => True := by
  generalize hc : Configuration.carrying env address course = c at h
  induction h generalizing course with
  | root | call | next => cases hc
  | @fetch env m address line running here inside =>
    cases hc
    obtain ⟨g, hs, hr, -, -, htop⟩ := (restoring_kept settings).reached hstart running
    have hlive : env.scope < m.frames.size := by
      obtain ⟨frame, -, hframe⟩ := htop
      rw [hframe, hs]
      exact Nat.lt_of_lt_of_eq (Nat.lt_succ_self _) (Array.size_push _).symm
    have haimed : (aimed env.scope (address + 1)).Holds ()
        (m.changeFrames fun f => f.setNext env.scope (address + 1)) :=
      Facts.plain_holds.mpr ⟨⟨htop.retained.trans hr, m.frames.next_setNext hlive _⟩, trivial⟩
    have hkept := aimed_kept settings (env.atPlace line.span) env.scope (address + 1)
    -- an instruction that calls nobody cannot be in the middle of a call, so it may jump
    cases hcalls : line.instr.calls with
    | false => exact .inr ((hkept.perform_quiet hcalls _ haimed).mono fun _ _ _ => trivial)
    | true =>
      refine .inl (((hkept.perform_calls hcalls _ haimed).mono fun flow k hk => ?_).permit
        fun _ _ _ ⟨_, _, _, hk⟩ => hk)
      obtain ⟨⟨flow, rfl, rfl⟩, hk⟩ := hk
      exact ⟨rfl, (Facts.plain_holds.mp hk).1.2⟩
  | back hcarry invokes ih =>
    cases hc
    rcases ih rfl with hr | hw
    · exact .inl (hr.back (hcarry.call_frames hstart invokes).2)
    · cases hw with
      | call hnone => exact hnone.elim

/-! ## Instances that are called -/

/-- How an instance that runs comes to its end: there is no instruction at the address that its frame names,
or the last one that it carried out failed, and it stays in the state in which that happened. -/
def Stops (settings : Settings) (env : Env) (addresses : List Nat) (k : Machine) : Prop :=
  env.program.lines[k.frames.next env.scope]? = none ∨
    ∃ earlier address line m visits, addresses = earlier ++ [address] ∧
      env.program.lines[address]? = some line ∧
      Follows settings ((Rendering.perform settings (env.atPlace line.span) line.instr).run m) none visits k

theorem Runs.stops {env : Env} {m k : Machine} {addresses : List Nat} {visits : List Visit} :
    Runs settings env m addresses visits k → Stops settings env addresses k
  | .ends outside => .inl outside
  | .fails _ inside does => .inr ⟨[], _, _, _, _, rfl, inside, does⟩
  | .continues _ _ _ run => run.stops.imp id fun ⟨earlier, address, line, m, visits, he, hl, hf⟩ =>
      ⟨_ :: earlier, address, line, m, visits, congrArg (_ :: ·) he, hl, hf⟩

/-- What comes of an instance that is called. It is refused, and its caller reports that; or it carries out
instructions, the later the further on in its code, until it stops, and the output stays as it was then. -/
def Called (settings : Settings) (caller : Env) (callee : Instance) (m : Machine) (visits : List Visit)
    (k : Machine) : Prop :=
  (settings.depthLimit < m.frames.depth caller.scope + 1 ∧ visits = [.refused caller callee m k] ∧
      k = m.report settings caller .recursionLimit [toString settings.depthLimit, callee.name] []) ∨
    ∃ env l addresses inner k', m.frames.depth caller.scope + 1 ≤ settings.depthLimit ∧
      m.enter (some caller) callee = (env, l) ∧ visits = .entered env l.frames addresses :: inner ∧
      Runs settings env l addresses inner k' ∧ addresses.Pairwise (· < ·) ∧ Stops settings env addresses k' ∧
        k.sink = k'.sink

/-- The state when an instance has been run is that before but for what it wrote and reported. -/
structure Contained (m k : Machine) : Prop where
  stack : k.stack = m.stack
  frames : k.frames = m.frames
  written : m.sink.After k.sink
  cursor : k.cursor = k.sink.position

/-- Aborts are contained. In a render that does not retain frames, each instance that is called leaves the
operands and frames of those that are active as they were, with the output behind what it wrote. Its
caller goes on with the instruction that it carries out, and then with the next one. -/
theorem aborts_contained (i : Interpreter) (room : Option Nat) (bound : Instance) (w : Workspace) :
    let settings : Settings := ⟨i.depthLimit, bound.group, i.listener.getD bound.group.listener⟩
    let start : Machine := ⟨.empty false, [], .output room, 0, w⟩
    ∀ env address caller callee m rest,
      Reached settings bound start (.carrying env address (.call caller callee m rest)) →
      ∃ visits k, Invokes settings (some caller) callee m visits k ∧
        (∀ visits' k', Invokes settings (some caller) callee m visits' k' → visits' = visits ∧ k' = k) ∧
        Called settings caller callee m visits k ∧ Contained m k ∧
        ∃ visits' l, Follows settings (rest k) (some .next) visits' l ∧
          Reached settings bound start (.running env l) ∧ l.frames.next env.scope = address + 1 := by
  intro settings start env address caller callee m rest h
  have hstart : (restoring settings).before (.empty false) none bound start :=
    restoring_start bound [] (.output room) 0 w
  have hwritten : Facts.written.contract.before (.output room) none bound start :=
    ⟨nofun, .refl Facts.plain_same _, Facts.plain_holds.mpr ⟨trivial, .refl _, rfl⟩⟩
  obtain ⟨visits₀, hrender, -⟩ := render_ends i false room bound w
  obtain ⟨flow, _, l, hf, -⟩ := h.going hrender
  cases hf with
  | @call _ _ _ _ k _ _ visits visits' hi hf =>
    obtain ⟨hb, hframes⟩ := h.call_frames hstart hi
    obtain ⟨hstack, hsound⟩ := hi.stack_eq hb
    obtain ⟨-, base, -, -, hm⟩ := (Facts.written_lasting settings).contract.called hwritten h
    obtain ⟨hafter, hcursor⟩ := hi.after (Facts.plain_holds.mp hm).2.2
    refine ⟨visits, k, hi, fun _ _ hi' => hi'.unique hi, ?_, ⟨hstack, hframes, hafter, hcursor⟩, ?_⟩
    · cases hi with
      | refused deep reported => exact .inl ⟨deep, rfl, reported⟩
      | entered shallow he hr =>
        have hsorted := (hsound _ List.mem_cons_self).2.2.2.2.1
        exact .inr ⟨_, _, _, _, _, shallow _ rfl, he, rfl, hr, hsorted, hr.stops, rfl⟩
    · have hback := h.back hi
      rcases h.resumes hstart with hr | hw
      · obtain ⟨rfl, hnext⟩ := hf.resumes hstart hback (hr.back hframes)
        exact ⟨visits', l, hf, .next (hf.arrives hback), hnext⟩
      · cases hw with
        | call hnone => exact hnone.elim

theorem aborts_contained_page :
    let directory : Directory := ⟨fun _ => none, fun _ => none, []⟩
    ∃ p q, Program.compile directory "page" (.ofNames ["box"]) "<box>" = .ok p ∧
      Program.compile directory "box" (.ofNames []) "a<(\"x\")()>b" = .ok q ∧
      let callee : Instance := .ofProgram (.empty "main") (.empty "main") q none
      let bound := (Instance.ofProgram (.empty "main") (.empty "main") p none).bind "box" (.template callee)
      let settings : Settings := ⟨100, .empty "main", .log⟩
      let start : Machine := ⟨.empty false, [], .output none, 0, .empty⟩
      ∃ env address caller m rest,
        Reached settings bound start (.carrying env address (.call caller callee m rest)) ∧
        ∃ visits k, Invokes settings (some caller) callee m visits k ∧
          (∀ visits' k', Invokes settings (some caller) callee m visits' k' → visits' = visits ∧ k' = k) ∧
          Called settings caller callee m visits k ∧ Contained m k ∧
          ∃ visits' l, Follows settings (rest k) (some .next) visits' l ∧
            Reached settings bound start (.running env l) ∧ l.frames.next env.scope = address + 1 := by
  intro directory
  have hpage : (Program.compile directory "page" (.ofNames ["box"]) "<box>").toOption.map
      (fun p => (p.lines, p.constants)) = some ([⟨.pushAttribute 0, some ⟨1, 3⟩⟩,
        ⟨.write ⟨false, false, false⟩, some ⟨0, 5⟩⟩], ["box"]) := by
    decide +kernel
  have hbox : (Program.compile directory "box" (.ofNames []) "a<(\"x\")()>b").isOk = true := by
    decide +kernel
  cases hp : Program.compile directory "page" (.ofNames ["box"]) "<box>" with
  | error e =>
    rw [hp] at hpage
    cases hpage
  | ok p =>
  obtain ⟨q, hq, -⟩ := Program.of_isOk hbox
  rw [hp] at hpage
  refine ⟨p, q, rfl, hq, ?_⟩
  intro callee bound settings start
  obtain ⟨⟨name, formals, source, lines, constants, inner, anonymous⟩, lowered⟩ := p
  cases hpage
  have hroot : Reached settings bound start (.running ⟨⟨bound, 0⟩, [], none⟩ (start.enter none bound).2) :=
    .root rfl
  have hread := @Reached.fetch _ _ _ _ _ 0 ⟨.pushAttribute 0, some ⟨1, 3⟩⟩ hroot rfl rfl
  have hnext := @Reached.next _ _ _ _ _ 0 .next hread
  have hwrite := @Reached.fetch _ _ _ _ _ 1 ⟨.write ⟨false, false, false⟩, some ⟨0, 5⟩⟩ hnext rfl rfl
  exact ⟨_, _, _, _, _, hwrite, aborts_contained {} none bound .empty _ _ _ _ _ _ hwrite⟩

end Stencil
