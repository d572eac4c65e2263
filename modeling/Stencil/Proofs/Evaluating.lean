import Stencil.Proofs.Containment
import Stencil.Proofs.Direct
import Stencil.Proofs.Hushed
import Stencil.Proofs.Telling
/-! What the instructions of a direct template do that write no expression: text comes behind what was there, and
nothing is recorded but what ran early. -/

namespace Stencil

open Rendering

/-! ## Later states -/

/-- A later state of a render, with more events and more text behind what there was. The first `n` frames have the
same addresses. -/
structure Machine.Goes (n : Nat) (m k : Machine) (new : List Event) : Prop where
  frames : m.frames.Since n k.frames new
  sink : m.sink.After k.sink
  leads : m.sink.Leads k.sink

namespace Machine.Goes

variable {n : Nat} {m k l : Machine} {new new' : List Event}

theorem refl (n : Nat) (m : Machine) : m.Goes n m [] := ⟨.refl n _, .refl _, .refl _⟩

theorem trans (h : m.Goes n k new) (h' : k.Goes n l new') : m.Goes n l (new ++ new') where
  frames := h.frames.trans h'.frames
  sink := h.sink.trans h'.sink
  leads := h.leads.trans h'.leads

theorem mono {n' : Nat} (hn : n' ≤ n) (h : m.Goes n k new) : m.Goes n' k new := ⟨h.frames.mono hn, h.sink, h.leads⟩

end Machine.Goes

/-- What instructions keep that only evaluate or write text: the log. -/
def Machine.going (m : Machine) : Facts :=
  .plain Unit (fun _ s _ => m.sink.After s ∧ m.sink.Leads s) fun f => m.frames.Since m.frames.size f []

theorem Machine.going_quiet (m : Machine) (settings : Settings) (env : Env) : m.going.Quiet settings env :=
  Facts.plain_quiet (fun _ _ _ _ _ h ha => ⟨h.1.accept ha, h.2.accept ha⟩)
    (fun _ _ _ _ h _ ha => ⟨h.1, h.2.refuse ha⟩) fun _ name v h => h.trans (.storeDefault _ name v)

theorem Machine.going_holds {m k : Machine} : m.going.Holds () k ↔ m.Goes m.frames.size k [] :=
  Facts.plain_holds.trans ⟨fun h => ⟨h.1, h.2.1, h.2.2⟩, fun h => ⟨h.frames, h.sink, h.leads⟩⟩

/-! ## Expressions in parentheses -/

variable {settings : Settings} {env : Env} {C : Permit} {I : Machine → Prop}

theorem Rendering.Within.pop (h : ∀ m stack, I m → I { m with stack }) : Within C I anything pop := fun m hm => by
  unfold Rendering.pop
  split
  · exact .fallback (.done ⟨trivial, hm⟩)
  · exact .done ⟨trivial, h m _ hm⟩

theorem Rendering.Within.push (h : ∀ m stack, I m → I { m with stack }) (v : Value) :
    Within C I anything (push v) := .modify fun m => h m _

/-- A value is rendered to text while its frame runs early. -/
theorem renderText_hushed {m : Machine} (hs : env.scope < m.frames.size) (he : m.frames.isEarly env.scope = true)
    (v : Value) : (renderText settings env v m).Within (m.frames.hushing.permit env) fun _ k =>
      m.frames.Hushed k.frames ∧ k.sink = m.sink := by
  have hkept := m.frames.hushing_kept settings env hs he
  have hcapture (v : Value) : (capture (writeValue settings env {} v) m).Within (m.frames.hushing.permit env)
      fun _ k => m.frames.Hushed k.frames ∧ k.sink = m.sink := by
    rw [capture_apply]
    refine (hkept.of_bond (o := ()) (hkept.bond.writeValue {} (.refl Facts.plain_same v)) _ ?_).bind
      fun _ k ⟨_, hk⟩ => .done ⟨hk.frames, rfl⟩
    exact Facts.plain_holds.mpr ⟨.refl _, trivial⟩
  cases v with
  | text s => exact .done ⟨.refl _, rfl⟩
  | _ => exact hcapture _

/-- A value in parentheses is rendered to text early, wherever it stands. -/
theorem renderEarly_hushed {m : Machine} (hr : m.frames.retained = true) (hs : env.scope < m.frames.size) (v : Value) :
    Within (hushed.permit env) (fun k => m.frames.Hushed k.frames ∧ k.sink = m.sink) anything
      (renderEarly settings env v) := by
  intro k ⟨hk, hsink⟩
  let f := k.frames.setEarly env.scope true
  have hlive : env.scope < k.frames.size := Nat.lt_of_lt_of_le hs hk.size
  have hsize : f.size = k.frames.size := k.frames.size_change _ _
  have hearly : f.isEarly env.scope = true := k.frames.isEarly_setEarly hlive true
  have hlive' : env.scope < f.size := hsize ▸ hlive
  have htext := @renderText_hushed settings env { k with frames := f } hlive' hearly v
  refine (htext.permit (Frames.hushing_permit env hlive' hearly (hk.retained.trans hr))).bind
    fun text l ⟨⟨new, hl, he⟩, hsame⟩ => .done ⟨trivial, ?_, hsame.trans hsink⟩
  have hback : k.frames.Since k.frames.size (l.frames.setEarly env.scope (k.frames.isEarly env.scope)) new :=
    .unhush (hsize ▸ hl)
  exact hk.trans ⟨new, hback, he⟩

/-! ## Instructions -/

/-- An instruction that is no write, and renders no text but of what stands in parentheses. -/
def Instr.Evaluates {τ ι : Type} (i : Instr τ ι) : Prop :=
  i.calls = false ∨ i = .render ∨ ∃ function, i = .builtin function ∧ function.takesText = false

/-- A function that takes no text just takes its argument from the stack and puts its result there. -/
theorem perform_applies {m : Machine} {function : Builtin} (hf : function.takesText = false) :
    Attempt.Within C (fun k => m.Goes m.frames.size k []) (fun flow => flow = .next)
      (perform settings env (.builtin function)) := by
  rw [perform, Instr.convertM, pure_bind]
  refine .bind (.lift (.pop fun _ _ h => ⟨h.frames, h.sink, h.leads⟩)) fun v _ => ?_
  have hpure : applyBuiltin settings env function v = pure (.apply function v) := by
    unfold applyBuiltin
    rw [hf]
    rfl
  rw [hpure, liftM_pure, pure_bind]
  exact .bind (.lift (.push (fun _ _ h => ⟨h.frames, h.sink, h.leads⟩) _)) fun _ _ => .pure rfl

/-- Instructions that write no expression record nothing but what runs early, and only jump to their target. -/
theorem perform_evaluates {m : Machine} (hr : m.frames.retained = true) (hs : env.scope < m.frames.size)
    {i : Instr Nat Nat} (hi : i.Evaluates) : ((perform settings env i).run m).Within (hushed.permit env) fun flow k =>
      (∀ target, flow = some (.jump target) → i.target? = some target) ∧
        ∃ new, m.Goes m.frames.size k new ∧ ∀ e ∈ new, e.IsEarly := by
  have hnext {flow : Option Flow} (h : ∀ a ∈ flow, a = .next) (target : Nat) :
      flow = some (.jump target) → i.target? = some target := fun hf => nomatch h _ hf
  rcases hi with hi | rfl | ⟨function, rfl, hf⟩
  · refine ((m.going_quiet settings env).perform_quiet (o := ()) hi m (Machine.going_holds.mpr (.refl _ _))).mono
      fun flow k hk => ⟨fun target hf => hk.1 _ hf target rfl, [], Machine.going_holds.mp hk.2, nofun⟩
  · have hrender : Attempt.Within (hushed.permit env) (fun k => m.frames.Hushed k.frames ∧ k.sink = m.sink)
        (fun flow => flow = .next) (perform settings env .render) := by
      rw [perform, Instr.convertM, pure_bind]
      exact .bind (.lift (.pop fun _ _ h => h)) fun v _ => .bind (.lift (renderEarly_hushed hr hs v)) fun text _ =>
        .bind (.lift (.push (fun _ _ h => h) _)) fun _ _ => .pure rfl
    refine (hrender m ⟨.refl _, rfl⟩).mono fun _ k h => ?_
    obtain ⟨hflow, ⟨new, hk, he⟩, hsame⟩ := h
    refine ⟨hnext hflow, new, ⟨hk, ?_, ?_⟩, he⟩
    · rw [hsame]
      exact .refl _
    · rw [hsame]
      exact .refl _
  · exact (perform_applies hf m (.refl _ _)).mono fun _ k hk => ⟨hnext hk.1, [], hk.2, nofun⟩

/-- A text is put on the stack. -/
theorem perform_pushText (m : Machine) (id : Nat) : ((perform settings env (.pushText id)).run m).Within C
    fun _ k => ∃ s, k.stack = .text s :: m.stack := by
  unfold perform
  rw [Instr.convertM]
  unfold constant
  cases env.program.constants[id]? with
  | some s => exact .done ⟨s, rfl⟩
  | none => exact .fallback (.done ⟨"", rfl⟩)

end Stencil
