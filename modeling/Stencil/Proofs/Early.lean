import Stencil.Proofs.Operands
import Stencil.Proofs.Ranges
import Stencil.Proofs.Scoping
/-! Early evaluation. A frame runs early exactly if an instance further out is in the middle of rendering a value in
parentheses. -/

namespace Stencil

open Rendering

/-- An instruction of a program renders a value in parentheses, or the computed name of a template. -/
def Program.Renders (p : Program) (address : Nat) : Prop :=
  ∃ line, p.lines[address]? = some line ∧ line.instr.renders = true

namespace Frames

variable {P : Program → Nat → Prop} {f k : Frames} {a : Activation} {as : List Activation}

/-- An activation is in the middle of an instruction that is `P`. -/
def At (P : Program → Nat → Prop) (f : Frames) (a : Activation) : Prop :=
  ∃ address, f.next a.scope = address + 1 ∧ P a.bound.program address

/-- One of some activations is in the middle of an instruction that is `P`. -/
def Amid (P : Program → Nat → Prop) (f : Frames) (as : List Activation) : Prop := ∃ a ∈ as, f.At P a

/-- Frames run early if they do in the end. Those of some activations do so as well while they are in the middle of
rendering a value in parentheses. -/
def Marks (f : Frames) (as : List Activation) (last : Frames) : Prop :=
  ∀ scope < f.size, f.isEarly scope = true ↔
    last.isEarly scope = true ∨ ∃ a ∈ as, a.scope = scope ∧ f.At Program.Renders a

theorem at_congr (h : k.next a.scope = f.next a.scope) : k.At P a ↔ f.At P a := by rw [At, At, h]

theorem at_iff {address : Nat} (h : f.next a.scope = address + 1) : f.At P a ↔ P a.bound.program address := by
  constructor
  · rintro ⟨other, hn, hp⟩
    rwa [show address = other from Nat.succ.inj (h.symm.trans hn)]
  · exact fun hp => ⟨address, h, hp⟩

theorem amid_congr (h : ∀ a ∈ as, k.next a.scope = f.next a.scope) : k.Amid P as ↔ f.Amid P as :=
  exists_congr fun a => and_congr_right fun ha => at_congr (h a ha)

theorem not_amid_nil : ¬ f.Amid P [] := by
  rintro ⟨a, ha, -⟩
  cases ha

theorem amid_cons {address : Nat} (h : f.next a.scope = address + 1) :
    f.Amid P (a :: as) ↔ P a.bound.program address ∨ f.Amid P as := by
  rw [Amid, List.exists_mem_cons_iff, at_iff h, Amid]

/-- Later frames are marked only if those before were. -/
theorem Marks.before {n : Nat} {last : Frames} (h : k.Marks as last) (hk : f.Later n k) (hn : ∀ a ∈ as, a.scope < n) :
    f.Marks as last := fun scope hs => by
  rw [← hk.early scope hs, h scope (Nat.lt_of_lt_of_le hs hk.size)]
  exact or_congr_right (exists_congr fun a => and_congr_right fun ha => and_congr_right fun _ =>
    at_congr (hk.next _ (hn a ha)))

/-- While an instance carries out the instruction at an address, its frame and those above it are there, and it runs
early exactly if one above is in the middle of an instruction that is `P`. -/
structure Engaged (P : Program → Nat → Prop) (f : Frames) (env : Env) (address : Nat) (early : Bool) : Prop where
  retained : f.retained = true
  live : env.scope < f.size
  outer : ∀ a ∈ env.callers, a.scope < env.scope
  next : f.next env.scope = address + 1
  early : early = true ↔ f.Amid P env.callers

end Frames

/-- Between two instructions, an instance runs early exactly if one above it is in the middle of an instruction that
is `P`. -/
structure Machine.Poised (P : Program → Nat → Prop) (m : Machine) (env : Env) : Prop where
  retained : m.frames.retained = true
  live : env.scope < m.frames.size
  outer : ∀ a ∈ env.callers, a.scope < env.scope
  early : m.frames.isEarly env.scope = true ↔ m.frames.Amid P env.callers

/-- In a render, what has instances run is `P` just if it renders a value in parentheses, unless an instance further
out is in the middle of an instruction that is `P`. -/
def Marking (settings : Settings) (bound : Instance) (start : Machine) (P : Program → Nat → Prop) : Prop :=
  ∀ {env caller : Env} {address : Nat} {callee : Instance} {m : Machine} {rest : Machine → Course (Option Flow)}
    {line : Line Nat Nat}, Reached settings bound start (.carrying env address (.call caller callee m rest)) →
    env.program.lines[address]? = some line →
      ((line.instr.renders = true ∨ m.frames.Amid P env.callers) ↔ (P env.program address ∨ m.frames.Amid P env.callers))

variable {settings : Settings} {bound : Instance} {start : Machine} {P : Program → Nat → Prop}

/-! ## Steps -/

namespace Frames.Engaged

variable {f k : Frames} {env : Env} {address : Nat} {early : Bool}

theorem beyond (h : f.Engaged P env address early) (hk : f.Beyond env.scope f.size k) : k.Engaged P env address early where
  retained := hk.retained.trans h.retained
  live := Nat.lt_of_lt_of_le h.live hk.size
  outer := h.outer
  next := (hk.next _ h.live).trans h.next
  early := h.early.trans (amid_congr fun a ha => hk.next _ (Nat.lt_trans (h.outer a ha) h.live)).symm

/-- What an engaged instance calls is poised in its frame. -/
theorem poised {m l : Machine} {line : Line Nat Nat} {place : Option Span} {callee : Instance} {e : Env}
    (h : m.frames.Engaged P env address early)
    (hP : (line.instr.renders = true ∨ m.frames.Amid P env.callers) ↔ (P env.program address ∨ m.frames.Amid P env.callers))
    (flag : m.frames.Flagged env.scope (early || line.instr.renders))
    (he : m.enter (some (env.atPlace place)) callee = (e, l)) : l.Poised P e := by
  obtain ⟨henter, hscope, hsize, hcallers⟩ := Machine.later_enter he
  have hlive : ∀ a ∈ e.callers, a.scope < m.frames.size := by
    rw [hcallers]
    exact List.forall_mem_cons.mpr ⟨h.live, fun a ha => Nat.lt_trans (h.outer a ha) h.live⟩
  refine ⟨henter.retained.trans h.retained, by omega, fun a ha => hscope ▸ hlive a ha, ?_⟩
  calc l.frames.isEarly e.scope = true
      ↔ (early || line.instr.renders) = true := by rw [Machine.isEarly_enter he, ← flag.2]; rfl
    _ ↔ line.instr.renders = true ∨ m.frames.Amid P env.callers := by rw [Bool.or_eq_true, h.early, or_comm]
    _ ↔ m.frames.Amid P e.callers := by rw [hP, hcallers]; exact (amid_cons h.next).symm
    _ ↔ l.frames.Amid P e.callers := (amid_congr fun a ha => henter.next _ (hlive a ha)).symm

end Frames.Engaged

namespace Machine.Poised

variable {m k : Machine} {env : Env}

theorem later (h : m.Poised P env) (hk : m.frames.Later env.scope k.frames) : k.Poised P env where
  retained := hk.retained.trans h.retained
  live := Nat.lt_of_lt_of_le h.live hk.size
  outer := h.outer
  early := by
    rw [hk.early _ h.live, h.early]
    exact (Frames.amid_congr fun a ha => hk.next _ (h.outer a ha)).symm

theorem engaged (h : m.Poised P env) (address : Nat) :
    (m.frames.setNext env.scope (address + 1)).Engaged P env address (m.frames.isEarly env.scope) := by
  have hset := m.later_setNext env.scope (address + 1)
  refine ⟨hset.retained.trans h.retained, Nat.lt_of_lt_of_le h.live hset.size, h.outer,
    m.frames.next_setNext h.live _, h.early.trans ?_⟩
  exact (Frames.amid_congr fun a ha => hset.next _ (h.outer a ha)).symm

end Machine.Poised

/-! ## Renders -/

/-- An instance that nothing calls does not run early. -/
theorem Machine.isEarly_root {m k : Machine} {callee : Instance} {env : Env} (h : m.enter none callee = (env, k)) :
    k.frames.isEarly env.scope = false := by
  cases h
  have hnew := m.frames.get?_enter none callee.name m.frames.size
  rw [if_pos rfl] at hnew
  exact congrArg (fun frame : Option Frame => (frame.map Frame.early).getD false) hnew

/-- An instance that runs is poised, and one in the middle of an instruction is engaged and goes along. -/
def Configuration.Early (P : Program → Nat → Prop) : Configuration → Prop
  | .running env m => m.Poised P env
  | .carrying env address course => ∃ f place line early, env.program.lines[address]? = some line ∧
      f.Engaged P env address early ∧ course.Along (env.atPlace place) (early || line.instr.renders)
        (fun _ k => k.Flagged env.scope early) f

/-- Between two instructions, each instance runs early exactly if one further out is in the middle of an instruction
that is `P`. -/
theorem Reached.early (hP : Marking settings bound start P) (hstart : start.frames = .empty true) {c : Configuration}
    (h : Reached settings bound start c) : c.Early P := by
  induction h with
  | root enter =>
    obtain ⟨henter, hscope, hsize, hcallers⟩ := Machine.later_enter enter
    refine ⟨henter.retained.trans (congrArg Frames.retained hstart), by omega, hcallers ▸ List.forall_mem_nil _, ?_⟩
    rw [Machine.isEarly_root enter, hcallers]
    exact iff_of_false Bool.false_ne_true Frames.not_amid_nil
  | @fetch env m address line _ _ inside ih =>
    exact ⟨_, _, line, _, inside, ih.engaged address, perform_fetched ih.live line (address + 1)⟩
  | call carrying shallow enter ih =>
    obtain ⟨f, place, line, early, hline, hengaged, hcourse⟩ := ih
    cases hcourse with
    | call aside flag back =>
      exact (hengaged.beyond aside.beyond).poised (hP carrying hline) flag enter
  | back carrying invokes ih =>
    obtain ⟨f, place, line, early, hline, hengaged, hcourse⟩ := ih
    cases hcourse with
    | call aside flag back =>
      have hm := hengaged.beyond aside.beyond
      have hlater := invokes.later hm.retained
      exact ⟨_, place, line, early, hline, hm.beyond hlater.beyond, back _ hlater⟩
  | @next env m address flow carrying ih =>
    obtain ⟨f, place, line, early, hline, hengaged, hcourse⟩ := ih
    cases hcourse with
    | done aside hflag =>
      have hm := hengaged.beyond aside.beyond
      have hpoised : m.Poised P env := ⟨hm.retained, hm.live, hm.outer, by rw [hflag.2]; exact hm.early⟩
      exact hpoised.later (flow.later m env.scope)

/-- An instance that runs leaves frames as they are marked when it is left, and one in the middle of an instruction as
they are marked after that. -/
def Configuration.Leaves (settings : Settings) (last : Frames) : Configuration → Prop
  | .running env m => ∃ addresses visits k, Runs settings env m addresses visits k ∧ k.frames.Marks env.callers last
  | .carrying env _ course => ∃ flow visits k, Follows settings course flow visits k ∧ k.frames.Marks env.callers last ∧
      ∀ f ∈ flow, ∃ addresses visits' l, Runs settings env (k.changeFrames (f.apply env.scope)) addresses visits' l ∧
        l.frames.Marks env.callers last

/-- While an engaged instance calls another one, frames are marked if they are after its instruction. -/
theorem Frames.Engaged.marks {j k last : Frames} {env : Env} {address : Nat} {early : Bool} {line : Line Nat Nat}
    (h : j.Engaged P env address early) (hline : env.program.lines[address]? = some line)
    (hj : j.isEarly env.scope = (early || line.instr.renders)) (hk : j.Beyond env.scope j.size k)
    (hflag : k.Flagged env.scope early) (hmarks : k.Marks env.callers last) :
    j.Marks (env.here :: env.callers) last := fun scope hs => by
  have hold := hmarks scope (Nat.lt_of_lt_of_le hs hk.size)
  have hat : ∀ a ∈ env.callers, k.At Program.Renders a ↔ j.At Program.Renders a := fun a ha =>
    at_congr (hk.next _ (Nat.lt_trans (h.outer a ha) h.live))
  rw [List.exists_mem_cons_iff]
  by_cases he : env.scope = scope
  · subst he
    have hlast : last.isEarly env.scope = true ↔ early = true := by
      rw [← hflag.2, hold, or_iff_left]
      rintro ⟨a, ha, hs, -⟩
      exact absurd hs (Nat.ne_of_lt (h.outer a ha))
    rw [hj, Bool.or_eq_true, hlast]
    refine or_congr_right ⟨fun hr => .inl ⟨rfl, (Frames.at_iff h.next).mpr ⟨line, hline, hr⟩⟩, ?_⟩
    rintro (⟨-, ha⟩ | ⟨a, ha, hs, -⟩)
    · obtain ⟨l, hl, hr⟩ := (Frames.at_iff h.next).mp ha
      cases hline.symm.trans hl
      exact hr
    · exact absurd hs (Nat.ne_of_lt (h.outer a ha))
  · have hne : ¬ (env.here.scope = scope ∧ j.At Program.Renders env.here) := fun h => he h.1
    rw [← hk.early scope hs (Ne.symm he), hold, or_iff_right hne]
    exact or_congr_right (exists_congr fun a => and_congr_right fun ha => and_congr_right fun _ => hat a ha)

/-- An instruction that has instances run renders a value in parentheses or does not. -/
theorem marking_renders (settings : Settings) (bound : Instance) (start : Machine) :
    Marking settings bound start Program.Renders := fun {_ _ _ _ _ _ line} _ hline => by
  refine or_congr_left ⟨fun hr => ⟨line, hline, hr⟩, ?_⟩
  rintro ⟨l, hl, hr⟩
  cases hline.symm.trans hl
  exact hr

/-- What is reached in a render leaves frames marked as they are at its end. -/
theorem Reached.leaves (hstart : start.frames = .empty true) {visits : List Visit} {last : Machine}
    (hrender : Invokes settings none bound start visits last) {c : Configuration} (h : Reached settings bound start c) :
    c.Leaves settings last.frames := by
  induction h with
  | @root env m enter =>
    cases hrender with
    | entered _ he run =>
      cases enter.symm.trans he
      have hp : m.Poised Program.Renders env :=
        Reached.early (marking_renders settings bound start) hstart (.root enter)
      have hrun := run.later hp.retained hp.live
      have hleave := Machine.later_leave (hrun.retained.trans hp.retained) env start.sink.position start.stack.length
      refine ⟨_, _, _, run, fun scope hs => ?_⟩
      rw [hleave.early scope hs, (Machine.later_enter enter).2.2.2]
      exact (or_iff_left nofun).symm
  | @fetch env m _ _ running here inside ih =>
    have hp : m.Poised Program.Renders env := running.early (marking_renders settings bound start) hstart
    obtain ⟨_, _, _, hr, hmarks⟩ := ih
    cases hr with
    | ends outside => cases outside.symm.trans (here ▸ inside)
    | fails here' inside' does =>
      cases here.symm.trans here'
      cases inside.symm.trans inside'
      exact ⟨_, _, _, does, hmarks, nofun⟩
    | @continues _ _ k _ _ _ flow _ _ _ here' inside' does run =>
      cases here.symm.trans here'
      cases inside.symm.trans inside'
      obtain ⟨hk, hflag⟩ := does.beyond (perform_fetched hp.live _ _) hp.retained
      have hnext := hp.later ((hk.fetched hp.live hflag).trans (flow.later k env.scope))
      refine ⟨_, _, _, does, ?_, fun f hf => ?_⟩
      · exact hmarks.before ((flow.later k env.scope).trans (run.later hnext.retained hnext.live)) hp.outer
      · cases hf
        exact ⟨_, _, _, run, hmarks⟩
  | @call env caller e address callee m l rest carrying shallow enter ih =>
    obtain ⟨_, _, _, hf, hmarks, -⟩ := ih
    obtain ⟨f, place, line, early, hline, hengaged, hcourse⟩ :=
      carrying.early (marking_renders settings bound start) hstart
    cases hcourse with
    | call aside flag back =>
    cases hf with
    | @call _ _ _ _ k _ _ _ _ hi hf =>
      have hm := hengaged.beyond aside.beyond
      have hlater := hi.later hm.retained
      obtain ⟨hlast, hflag⟩ := hf.beyond (back _ hlater) (hlater.retained.trans hm.retained)
      cases hi with
      | refused deep => exact absurd shallow (Nat.not_le.mpr deep)
      | @entered _ _ _ _ _ j _ _ _ he run =>
        cases enter.symm.trans he
        obtain ⟨henter, hscope, hsize, hcallers⟩ := Machine.later_enter enter
        have hrun := run.later (henter.retained.trans hm.retained) (by omega)
        have hj := henter.trans (hscope ▸ hrun)
        have hleave := Machine.later_leave (hj.retained.trans hm.retained) e m.sink.position m.stack.length
        have hmarked : j.frames.Marks (env.here :: env.callers) last.frames :=
          (hm.beyond hj.beyond).marks hline ((hj.early _ hm.live).trans flag.2)
            (hleave.beyond.trans (hlast.mono hleave.size)) hflag hmarks
        exact ⟨_, _, _, run, hcallers ▸ hmarked⟩
  | back _ invokes ih =>
    obtain ⟨_, _, _, hf, hmarks, hnext⟩ := ih
    cases hf with
    | call hi hf =>
      obtain ⟨-, rfl⟩ := invokes.unique hi
      exact ⟨_, _, _, hf, hmarks, hnext⟩
  | next _ ih =>
    obtain ⟨_, _, _, hf, -, hnext⟩ := ih
    cases hf
    exact hnext _ rfl

/-! ## Where frames come from -/

/-- Frames from one number up to another are those of instances that were entered. -/
def Visit.Cover (visits : List Visit) (n n' : Nat) : Prop :=
  ∀ scope, n ≤ scope → scope < n' → ∃ env f addresses, Visit.entered env f addresses ∈ visits ∧ env.scope = scope

namespace Visit.Cover

variable {v v' : List Visit} {n n' l : Nat}

theorem refl (v : List Visit) (n : Nat) : Cover v n n := fun _ hn hl => absurd hl (Nat.not_lt.mpr hn)

theorem append (h : Cover v n n') (h' : Cover v' n' l) : Cover (v ++ v') n l := fun scope hn hl => by
  rcases Nat.lt_or_ge scope n' with hs | hs
  · obtain ⟨env, f, as, hv, he⟩ := h scope hn hs
    exact ⟨env, f, as, List.mem_append_left _ hv, he⟩
  · obtain ⟨env, f, as, hv, he⟩ := h' scope hs hl
    exact ⟨env, f, as, List.mem_append_right _ hv, he⟩

theorem cons {env : Env} {f : Frames} {addresses : List Nat} (h : Cover v (env.scope + 1) l) :
    Cover (.entered env f addresses :: v) env.scope l := fun scope hn hl => by
  rcases Nat.eq_or_lt_of_le hn with rfl | hn
  · exact ⟨env, f, addresses, List.mem_cons_self, rfl⟩
  · obtain ⟨e, g, as, hv, he⟩ := h scope hn hl
    exact ⟨e, g, as, List.mem_cons_of_mem _ hv, he⟩

end Visit.Cover

theorem Machine.size_flow (m : Machine) (flow : Flow) (scope : Nat) :
    (m.changeFrames (flow.apply scope)).frames.size = m.frames.size := by
  cases flow with
  | next => rfl
  | jump => exact m.frames.size_change _ _

mutual

theorem Invokes.cover {caller : Option Env} {callee : Instance} {m k : Machine} {visits : List Visit} :
    Invokes settings caller callee m visits k → m.frames.retained = true →
      Visit.Cover visits m.frames.size k.frames.size
  | .refused _ hk, _ => by rw [hk]; exact .refl _ _
  | .entered _ he hrun, hr => by
      obtain ⟨henter, hscope, hsize, -⟩ := Machine.later_enter he
      have hlive := Nat.lt_of_lt_of_eq (Nat.lt_succ_of_le (Nat.le_of_eq hscope)) hsize.symm
      have hlater := hrun.later (henter.retained.trans hr) hlive
      rw [Machine.size_leave (hlater.retained.trans (henter.retained.trans hr)), ← hscope]
      exact .cons (hscope ▸ hsize ▸ hrun.cover (henter.retained.trans hr) hlive)

theorem Runs.cover {env : Env} {m k : Machine} {addresses : List Nat} {visits : List Visit} :
    Runs settings env m addresses visits k → m.frames.retained = true → env.scope < m.frames.size →
      Visit.Cover visits m.frames.size k.frames.size
  | .ends _, _, _ => .refl _ _
  | .fails _ _ does, hr, hs => m.frames.size_change _ _ ▸ does.cover (perform_fetched hs _ _) hr
  | @Runs.continues _ _ _ k _ _ _ flow _ _ _ _ _ does run, hr, hs => by
      obtain ⟨hk, hflag⟩ := does.beyond (perform_fetched hs _ _) hr
      have hnext := (hk.fetched hs hflag).trans (flow.later k env.scope)
      have hdoes := does.cover (perform_fetched hs _ _) hr
      rw [Frames.setNext, Frames.size_change, ← k.size_flow flow env.scope] at hdoes
      exact hdoes.append (run.cover (hnext.retained.trans hr) (Nat.lt_of_lt_of_le hs hnext.size))

theorem Follows.cover {env : Env} {early : Bool} {course : Course (Option Flow)} {flow : Option Flow} {k : Machine}
    {visits : List Visit} {post : Option Flow → Frames → Prop} {f : Frames} : Follows settings course flow visits k →
      course.Along env early post f → f.retained = true → Visit.Cover visits f.size k.frames.size
  | .done, .done aside _, _ => aside.size ▸ .refl _ _
  | .call hi hf, .call aside _ back, hr =>
      have hm := aside.retained.trans hr
      have hlater := hi.later hm
      (aside.size ▸ hi.cover hm).append (hf.cover (back _ hlater) (hlater.retained.trans hm))

end

/-! ## Traces -/

/-- The operand of an instance has others run only to render its value, unless one further out evaluates an operand. -/
def OperandsRender (settings : Settings) (bound : Instance) (start : Machine) : Prop :=
  ∀ {env caller : Env} {address : Nat} {callee : Instance} {m : Machine} {rest : Machine → Course (Option Flow)}
    {line : Line Nat Nat}, Reached settings bound start (.carrying env address (.call caller callee m rest)) →
    env.program.lines[address]? = some line → env.program.InOperand address →
      ¬ m.frames.Amid Program.InOperand env.callers → line.instr.renders = true

/-- The flags of a trace mark early evaluation. -/
structure Trace.Marked (settings : Settings) (bound : Instance) (start : Machine) (t : Trace) : Prop where
  /-- Each frame is that of an instance that ran. -/
  ran : ∀ scope < t.frames.size, ∃ env m, Reached settings bound start (.running env m) ∧ env.scope = scope
  /-- The frame of an instance is flagged exactly if one further out evaluates an operand while it runs. -/
  early : ∀ env m, Reached settings bound start (.running env m) →
    (t.frames.isEarly env.scope = true ↔ m.frames.Amid Program.InOperand env.callers)
  /-- Whenever an instance is about to carry out an instruction, all frames are flagged as they are in the trace. Those
  further out that render a value in parentheses are flagged as well until that is done. -/
  before : ∀ env m, Reached settings bound start (.running env m) → m.frames.Marks env.callers t.frames
  /-- So they are when an instruction has been carried out, also if it failed. -/
  after : ∀ env address flow m, Reached settings bound start (.carrying env address (.done flow m)) →
    m.frames.Marks env.callers t.frames

/-- Operands that have others run only to render their value are what is rendered in parentheses. -/
theorem OperandsRender.marking (h : OperandsRender settings bound start) :
    Marking settings bound start Program.InOperand := fun {env _ _ _ m _ _} hreach hline => by
  refine ⟨Or.imp_left fun hr => Program.inOperand_of_renders hline hr, ?_⟩
  rintro (hp | ha)
  · by_cases ha : m.frames.Amid Program.InOperand env.callers
    · exact .inr ha
    · exact .inl (h hreach hline hp ha)
  · exact .inr ha

/-- A frame of a trace is flagged exactly if it ran while an operand was evaluated, and each instruction leaves all
flags as they were. -/
theorem early_marks (i : Interpreter) (bound : Instance) (w : Workspace) :
    let settings : Settings := ⟨i.depthLimit, bound.group, i.listener.getD bound.group.listener⟩
    let start : Machine := ⟨.empty true, [], .output none, 0, w⟩
    OperandsRender settings bound start → ((i.trace bound).run w).1.Marked settings bound start := by
  intro settings start hoperands
  obtain ⟨visits, hrender, -⟩ := render_ends i true none bound w
  have hpoised : ∀ env m, Reached settings bound start (.running env m) → m.Poised Program.InOperand env :=
    fun env m h => h.early hoperands.marking rfl
  have hbefore : ∀ env m, Reached settings bound start (.running env m) →
      m.frames.Marks env.callers ((i.trace bound).run w).1.frames := fun env m h => by
    have hp := hpoised env m h
    obtain ⟨addresses, visits', k, hr, hmarks⟩ := h.leaves rfl hrender
    exact hmarks.before (hr.later hp.retained hp.live) hp.outer
  refine ⟨fun scope hs => ?_, fun env m h => ?_, hbefore, fun env address flow m h => ?_⟩
  · obtain ⟨env, f, addresses, hv, rfl⟩ := hrender.cover rfl scope (Nat.zero_le _) hs
    obtain ⟨m, -, hm⟩ := hrender.met_root _ hv
    exact ⟨env, m, hm, rfl⟩
  · have hp := hpoised env m h
    rw [← hp.early, hbefore env m h _ hp.live]
    refine (or_iff_left ?_).symm
    rintro ⟨a, ha, hs, -⟩
    exact absurd hs (Nat.ne_of_lt (hp.outer a ha))
  · obtain ⟨_, _, _, hf, hmarks, -⟩ := h.leaves rfl hrender
    cases hf
    exact hmarks

/-! ## Direct templates -/

/-- In the middle of an instruction that has no others run, there are no calls. -/
def Configuration.Idle : Configuration → Prop
  | .running _ _ => True
  | .carrying env address course => ∀ line, env.program.lines[address]? = some line → line.instr.Evaluates →
      line.instr.renders = false → course.Within .none fun _ _ => True

/-- Instructions that neither write nor render have nothing run. -/
theorem Reached.idle {c : Configuration} (h : Reached settings bound start c) : c.Idle := by
  induction h with
  | root | call | next => trivial
  | @fetch env m address line _ _ inside _ =>
    intro l hl he hr
    cases inside.symm.trans hl
    rcases he with hi | hi | ⟨function, hi, hf⟩
    · exact ((Machine.going_quiet _ settings (env.atPlace line.span)).perform_quiet (o := ()) hi _
        (Machine.going_holds.mpr (.refl _ _))).mono fun _ _ _ => trivial
    · rw [hi] at hr
      cases hr
    · rw [hi]
      exact (perform_applies hf _ (.refl _ _)).mono fun _ _ _ => trivial
  | back _ _ ih =>
    intro l hl he hr
    cases ih l hl he hr with
    | call hc => exact hc.elim

/-- What carries out an instruction was about to do so. -/
theorem Reached.fetched {env : Env} {address : Nat} {course : Course (Option Flow)}
    (h : Reached settings bound start (.carrying env address course)) :
    ∃ m, Reached settings bound start (.running env m) := by
  generalize hc : Configuration.carrying env address course = c at h
  induction h generalizing course with
  | root | call | next => cases hc
  | fetch running =>
    cases hc
    exact ⟨_, running⟩
  | back _ _ ih =>
    cases hc
    exact ih rfl

/-- Operands of direct templates have others run only to render their value. -/
theorem OperandsRender.of_direct (hd : ∀ env m, Reached settings bound start (.running env m) → env.program.Direct) :
    OperandsRender settings bound start := fun {env _ _ _ _ _ line} hreach hline hp _ => by
  obtain ⟨m, hrun⟩ := hreach.fetched
  cases hr : line.instr.renders with
  | true => rfl
  | false =>
    rcases (hd env m hrun).instr hline with ⟨set, hw⟩ | he
    · exact absurd hw (hp.not_write hline set)
    · cases hreach.idle line hline he hr with
      | call hc => exact hc.elim

theorem early_marks_page :
    let directory : Directory := ⟨fun _ => none, fun _ => none, []⟩
    ∃ p q, Program.compile directory "page" (.ofNames ["box"]) "<(box)>, <box>" = .ok p ∧
      Program.compile directory "box" (.ofNames ["name"]) "a<name>b" = .ok q ∧
      let callee := (Instance.ofProgram (.empty "main") (.empty "main") q none).bind "name" (.text "x")
      let bound := (Instance.ofProgram (.empty "main") (.empty "main") p none).bind "box" (.template callee)
      let settings : Settings := ⟨100, .empty "main", .log⟩
      let start : Machine := ⟨.empty true, [], .output none, 0, .empty⟩
      OperandsRender settings bound start ∧
        ((({} : Interpreter).trace bound).run .empty).1.Marked settings bound start := by
  intro directory
  have hok : (Program.compile directory "page" (.ofNames ["box"]) "<(box)>, <box>").toOption.map (·.inner.isEmpty) =
        some true ∧
      (Program.compile directory "box" (.ofNames ["name"]) "a<name>b").toOption.map (·.inner.isEmpty) = some true := by
    decide +kernel
  have hdirect : (Template.read "page" (.ofNames ["box"]) "<(box)>, <box>").toOption.map Template.direct = some true ∧
      (Template.read "box" (.ofNames ["name"]) "a<name>b").toOption.map Template.direct = some true := by
    decide +kernel
  cases hp : Program.compile directory "page" (.ofNames ["box"]) "<(box)>, <box>" with
  | error e =>
    rw [hp] at hok
    cases hok.1
  | ok p =>
  cases hq : Program.compile directory "box" (.ofNames ["name"]) "a<name>b" with
  | error e =>
    rw [hq] at hok
    cases hok.2
  | ok q =>
  rw [hp, hq] at hok
  refine ⟨p, q, rfl, rfl, ?_⟩
  intro callee bound settings start
  have hinner : ∀ r ∈ [p, q], r.inner = [] :=
    List.forall_mem_cons.mpr ⟨List.isEmpty_iff.mp (Option.some.inj hok.1),
      List.forall_mem_singleton.mpr (List.isEmpty_iff.mp (Option.some.inj hok.2))⟩
  have hall : bound.All fun i => i.program ∈ [p, q] ∧ i.native = .empty "main" :=
    .mk ⟨rfl, List.mem_cons_self, rfl⟩ (.cons _ (.template (.mk ⟨rfl, List.mem_cons_of_mem _ List.mem_cons_self, rfl⟩
      (.cons _ (.text _) .nil))) .nil)
  have hoperands : OperandsRender settings bound start := OperandsRender.of_direct fun env m h => by
    rcases List.mem_cons.mp (h.program hinner hall rfl) with hk | hk
    · exact hk ▸ .of_compile hp hdirect.1
    · exact List.mem_singleton.mp hk ▸ .of_compile hq hdirect.2
  exact ⟨hoperands, early_marks {} bound .empty hoperands⟩

end Stencil
