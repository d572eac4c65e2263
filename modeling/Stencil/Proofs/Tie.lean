import Stencil.Proofs.Link
/-! Two renders that write the same. Their outputs are in the same state throughout, so it is not said
where they write to. -/

namespace Stencil

open Rendering

/-- What makes a bond of two environments whose machines write the same to the same positions. -/
structure Tie (A : Accord) where
  settings : Settings
  env : Env
  env' : Env
  bare : Instance → Instance → Prop
  state : Machine → Machine → Prop
  allowed : Kind → Prop
  found : Callee → Except Unresolved (Group × Program) → Prop
  inner : Program → Prop
  abreast : env.Abreast env'
  here : env.here.bound.Alike bare env'.here.bound
  program_eq : ∀ i i', bare i i' → i.program = i'.program
  sink_eq : ∀ m m', state m m' → m.sink = m'.sink ∧ m.cursor = m'.cursor
  withSink : ∀ m m' sink cursor, state m m' →
    state { m with sink, cursor } { m' with sink, cursor }
  report : ∀ place m m' kind arguments causes, allowed kind → state m m' →
    state (m.report settings (env.atPlace place) kind arguments causes)
      (m'.report settings (env'.atPlace place) kind arguments causes)
  usual : UsualAllowed allowed
  outputFailure : allowed .outputFailure
  isEarly_eq : ∀ m m', state m m' → m.frames.isEarly env.scope = m'.frames.isEarly env'.scope
  setEarly : ∀ m m' early, state m m' →
    state (m.changeFrames (·.setEarly env.scope early)) (m'.changeFrames (·.setEarly env'.scope early))
  record : ∀ m m' output source, state m m' →
    state (m.changeFrames (·.recordWriting ⟨env.scope, output, source⟩))
      (m'.changeFrames (·.recordWriting ⟨env'.scope, output, source⟩))
  keepDefault : ∀ m m' name v v', v.Alike bare v' → state m m' →
    state (m.changeFrames (·.storeDefault env.scope name v))
      (m'.changeFrames (·.storeDefault env'.scope name v'))
  lookup : ∀ m m' name, state m m' → Option.Rel (Value.Alike bare)
    (lookupFrom m.frames name none env.activations) (lookupFrom m'.frames name none env'.activations)
  resolve : ∀ callee, Matched A state (fun r r' => r = r' ∧ found callee r)
    (resolve settings env callee) (Rendering.resolve settings env' callee)
  fresh : ∀ callee native program, found callee (.ok (native, program)) →
    bare (.ofProgram settings.group native program none) (.ofProgram settings.group native program none)
  enclosed : ∀ program, inner program →
    bare (enclosed settings env program) (Rendering.enclosed settings env' program)
  call : ∀ place bound bound', bound.Alike bare bound' →
    A (env.atPlace place) bound (env'.atPlace place) bound' state

namespace Tie

variable {A : Accord} (T : Tie A)

theorem writes (place : Option Span) (s : String) : Matched A T.state (fun _ _ => True)
    (writeText T.settings (T.env.atPlace place) s) (writeText T.settings (T.env'.atPlace place) s) := by
  intro ⟨f, stack, sink, cursor, w⟩ ⟨f', stack', sink', cursor', w'⟩ hm
  obtain ⟨rfl, rfl⟩ : sink = sink' ∧ cursor = cursor' := T.sink_eq _ _ hm
  rw [writeText_apply, writeText_apply]
  split
  · exact .done ⟨trivial, hm⟩ rfl
  · dsimp only
    cases sink.accept? s with
    | some sink => exact .done ⟨trivial, T.withSink _ _ _ _ hm⟩ rfl
    | none =>
      exact .done ⟨trivial, T.report place _ _ _ _ _ T.outputFailure (T.withSink _ _ _ cursor hm)⟩ rfl

theorem captures {x y : Rendering Unit} (h : Matched A T.state (fun _ _ => True) x y) :
    Matched A T.state Eq (capture x) (capture y) := by
  intro ⟨f, stack, sink, cursor, w⟩ ⟨f', stack', sink', cursor', w'⟩ hm
  obtain ⟨rfl, rfl⟩ : sink = sink' ∧ cursor = cursor' := T.sink_eq _ _ hm
  rw [capture_apply, capture_apply]
  refine (h _ _ (T.withSink _ _ (.scratch cursor) cursor hm)).bind fun _ _ k k' ⟨_, hk⟩ => ?_
  rw [(T.sink_eq k k' hk).1]
  exact .done ⟨rfl, T.withSink k k' _ _ hk⟩ rfl

/-- There is one outlet, and positions are the same in both. -/
def bond : Bond A where
  settings := T.settings
  env := T.env
  env' := T.env'
  bare := T.bare
  Outlet := Unit
  state _ := T.state
  allowed := T.allowed
  visited _ := True
  found := T.found
  inner := T.inner
  abreast := T.abreast
  here := T.here
  program_eq := T.program_eq
  usual := T.usual
  placed := trivial
  writes _ place s _ := T.writes place s
  report _ place m m' kind arguments causes _ := T.report place m m' kind arguments causes
  keepDefault _ := T.keepDefault
  lookup _ := T.lookup
  resolve callee _ := T.resolve callee
  fresh := T.fresh
  enclosed := T.enclosed
  near := Eq
  early := Eq
  captures h _ := T.captures (h ())
  positions _ m m' hm := by rw [(T.sink_eq m m' hm).1]
  early_true := rfl
  isEarly _ := T.isEarly_eq
  setEarly _ m m' early _ h := h ▸ T.setEarly m m' early
  record _ m m' output output' source hstart hstop hm := by
    obtain ⟨start, stop⟩ := output
    obtain ⟨start', stop'⟩ := output'
    cases hstart
    cases hstop
    have he := T.isEarly_eq m m' hm
    simp only [Machine.changeFrames, ← he]
    split
    · exact hm
    · exact T.record m m' _ _ hm
  call _ place bound bound' _ := T.call place bound bound'

end Tie

end Stencil
