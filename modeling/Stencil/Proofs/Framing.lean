import Stencil.Proofs.Reached
import Stencil.Proofs.Scoping
/-! The frames of the instances that run. They are there, each below that of its caller, and were opened one
after the other. -/

namespace Stencil

/-! ## Chains of frames -/

variable {as : List Activation}

namespace Frames.Chain

variable {f g : Frames}

/-- Only the templates and the callers of frames matter. -/
theorem of_face? (h : f.Chain as) (hg : ∀ scope frame, f.face? scope = some frame → ∃ frame',
    g.face? scope = some frame' ∧ frame'.template = frame.template ∧ frame'.parent = frame.parent) :
    g.Chain as := by
  induction h with
  | nil => exact .nil
  | cons face of _ ih =>
    obtain ⟨frame', hframe, ht, hp⟩ := hg _ _ face
    exact .cons hframe ⟨ht.trans of.template, hp.trans of.parent⟩ ih

theorem change (h : f.Chain as) (c : Frame → Frame) (ht : ∀ frame, (c frame).template = frame.template)
    (hp : ∀ frame, (c frame).parent = frame.parent) (scope : Nat) : (f.change scope c).Chain as := by
  refine h.of_face? fun other frame hf => ?_
  obtain ⟨k, hk, rfl⟩ := Option.map_eq_some_iff.mp hf
  rw [face?, get?_change, hk]
  split
  · exact ⟨_, rfl, ht k, hp k⟩
  · exact ⟨_, rfl, rfl, rfl⟩

theorem recordWriting (h : f.Chain as) (w : Writing) : (f.recordWriting w).Chain as :=
  h.congr fun _ _ => f.face?_recordWriting w _

/-- A new frame below the innermost one. -/
theorem enter (h : f.Chain as) (bound : Instance) :
    (f.enter (as.head?.map Activation.scope) bound.name).2.Chain (⟨bound, f.size⟩ :: as) :=
  .cons (f.face?_enter _ _) ⟨rfl, rfl⟩ (h.congr fun b hb => f.face?_enter_of_lt _ _ (h.lt_size b hb))

/-- Leaving the innermost frame. -/
theorem exit {a : Activation} (h : f.Chain (a :: as)) (hlt : ∀ b ∈ as, b.scope < a.scope) (c : Completion) :
    ((f.recordCompletion c).exit a.scope).Chain as := by
  cases h with
  | cons _ _ outer =>
    exact outer.congr fun b hb => (Frames.face?_exit _ (hlt b hb)).trans (f.face?_recordCompletion c _)

end Frames.Chain

/-- Numbers that go down along a list go down far enough. -/
theorem length_le_of_ordered {a : Activation} (h : (a :: as).Pairwise fun a b => b.scope < a.scope) :
    as.length ≤ a.scope := by
  induction as generalizing a with
  | nil => exact Nat.zero_le _
  | cons b as ih =>
    obtain ⟨hlt, hrest⟩ := List.pairwise_cons.mp h
    exact Nat.lt_of_le_of_lt (ih hrest) (hlt b List.mem_cons_self)

/-! ## States of renders -/

/-- The frames of a chain are there, each below the next, and the further in the greater is the number. -/
structure Machine.Framed (m : Machine) (as : List Activation) : Prop where
  live : m.frames.Chain as
  ordered : as.Pairwise fun a b => b.scope < a.scope

namespace Machine.Framed

variable {m : Machine}

theorem of_frames {k : Machine} (h : m.Framed as) (hk : k.frames.Chain as) : k.Framed as := ⟨hk, h.ordered⟩

theorem enter {caller : Option Env} (h : m.Framed (chain caller)) (bound : Instance) :
    (m.enter caller bound).2.Framed (m.enter caller bound).1.activations where
  live := by
    have hf := h.live.enter bound
    rw [← head?_chain] at hf
    exact hf
  ordered := .cons h.live.lt_size h.ordered

theorem entered {caller : Option Env} (h : m.Framed (chain caller)) {callee : Instance} {env : Env} {k : Machine}
    (he : m.enter caller callee = (env, k)) : k.Framed env.activations := by
  have hk := h.enter callee
  rw [he] at hk
  exact hk

theorem leave {env : Env} (h : m.Framed env.activations) (start height : Nat) :
    (m.leave env start height).Framed env.callers :=
  have ⟨hlt, hrest⟩ := List.pairwise_cons.mp h.ordered
  ⟨h.live.exit hlt _, hrest⟩

/-- The templates of the chain, the outermost first. -/
theorem callPath_eq {env : Env} (h : m.Framed env.activations) :
    m.frames.callPath env.scope = (env.activations.map fun a => a.bound.name).reverse :=
  h.live.callPath_eq (length_le_of_ordered h.ordered)

end Machine.Framed

/-! ## Renders -/

/-- Something that is known of frames for the activations that are open, the innermost first, whatever the
innermost does and when one is opened or closed. -/
structure Frames.Invariant (P : List Activation → Frames → Prop) : Prop where
  setNext : ∀ f a as address, f.Chain (a :: as) → P (a :: as) f → P (a :: as) (f.setNext a.scope address)
  setEarly : ∀ f a as early, f.Chain (a :: as) → P (a :: as) f → P (a :: as) (f.setEarly a.scope early)
  storeDefault : ∀ f a as name value, f.Chain (a :: as) → P (a :: as) f →
    P (a :: as) (f.storeDefault a.scope name value)
  recordWriting : ∀ f a as output source, f.Chain (a :: as) → P (a :: as) f →
    P (a :: as) (f.recordWriting ⟨a.scope, output, source⟩)
  enter : ∀ f as bound, f.Chain as → (as = [] → f.size = 0) → P as f →
    P (⟨bound, f.size⟩ :: as) (f.enter (as.head?.map Activation.scope) bound.name).2
  leave : ∀ f a as output, f.Chain (a :: as) → (a :: as).Pairwise (fun a b => b.scope < a.scope) →
    P (a :: as) f → P as ((f.recordCompletion ⟨a.scope, a.bound.name, output, f.isEarly a.scope⟩).exit a.scope)

theorem Frames.Invariant.none : Frames.Invariant fun _ _ => True := by
  constructor <;> intros <;> trivial

variable {P : List Activation → Frames → Prop}

/-- Frames of a chain, as facts. -/
def framing (P : List Activation → Frames → Prop) (as : List Activation) : Facts :=
  .plain Unit (fun _ _ _ => True) fun f => f.Chain as ∧ P as f

theorem framing_kept (hP : Frames.Invariant P) (settings : Settings) (env : Env) :
    (framing P env.activations).Kept settings env :=
  Facts.plain_kept (fun _ _ _ _ _ _ _ => trivial) (fun _ _ _ _ _ _ _ => trivial)
    (fun _ _ _ _ => ⟨(), trivial⟩)
    (fun f early h => ⟨h.1.change (fun frame => { frame with early }) (fun _ => rfl) (fun _ => rfl) _,
      hP.setEarly f _ _ early h.1 h.2⟩)
    (fun f _ _ h => ⟨h.1.recordWriting _, hP.recordWriting f _ _ _ _ h.1 h.2⟩)
    fun f name v h => ⟨h.1.change (fun frame => { frame with defaults := Dict.insert name v frame.defaults })
      (fun _ => rfl) (fun _ => rfl) _, hP.storeDefault f _ _ name v h.1 h.2⟩

/-- An instance that runs has its frame below those of its callers. -/
def framed (P : List Activation → Frames → Prop) : Contract where
  Index := List Activation
  before as caller _ m := as = chain caller ∧ m.Framed as ∧ P as m.frames ∧ (as = [] → m.frames.size = 0)
  during as env m := as = env.callers ∧ m.Framed env.activations ∧ P env.activations m.frames
  after as m := m.Framed as ∧ P as m.frames

theorem framed_kept (hP : Frames.Invariant P) (settings : Settings) : (framed P).Kept settings where
  enter _ caller callee m _ _ hb he _ := by
    obtain ⟨rfl, hm, hp, hroot⟩ := hb
    have hframes := hP.enter _ _ callee hm.live hroot hp
    rw [← head?_chain] at hframes
    cases he
    exact ⟨rfl, hm.enter _, hframes⟩
  refuse _ _ _ _ hb := ⟨hb.2.1.of_frames hb.2.1.live, hb.2.2.1⟩
  perform as env m place instr hm := by
    -- an instruction opens no frame itself, so callees are called in the frames of the instance
    obtain ⟨rfl, hm, hp⟩ := hm
    refine (((framing_kept hP settings (env.atPlace place)).perform (o := ()) instr m
      (Facts.plain_holds.mpr ⟨⟨hm.live, hp⟩, trivial⟩)).mono fun _ _ hk => ?_).permit ?_
    · obtain ⟨⟨hchain, hp⟩, -⟩ := Facts.plain_holds.mp hk.2
      exact ⟨rfl, hm.of_frames hchain, hp⟩
    · intro e callee kept ⟨he, _, _, hkept⟩
      cases he
      cases hkept
      refine ⟨⟨place, rfl⟩, fun l hl => ⟨env.activations, ?_, fun k hk => ?_⟩⟩
      · obtain ⟨⟨hchain, hp⟩, -⟩ := Facts.plain_holds.mp hl
        exact ⟨rfl, hm.of_frames hchain, hp, nofun⟩
      · exact Facts.plain_holds.mpr ⟨⟨hk.1.live, hk.2⟩, trivial⟩
  jump _ env m address hm := ⟨hm.1, hm.2.1.of_frames
    (hm.2.1.live.change (fun frame => { frame with next := address }) (fun _ => rfl) (fun _ => rfl) _),
    hP.setNext _ _ _ address hm.2.1.live hm.2.2⟩
  leave _ _ _ _ _ _ _ hb he hl := by
    obtain ⟨rfl, -⟩ := hb
    cases he
    exact ⟨hl.2.1.leave _ _, hP.leave _ _ _ _ hl.2.1.live hl.2.1.ordered hl.2.2⟩

theorem framed_start {retain : Bool} (hP : P [] (.empty retain)) (bound : Instance) (sink : Sink) (cursor : Nat)
    (w : Workspace) : (framed P).before [] none bound ⟨.empty retain, [], sink, cursor, w⟩ :=
  ⟨rfl, ⟨.nil, .nil⟩, hP, fun _ => rfl⟩

/-- All instances that a render calls are called in a state with the frames of their callers. -/
theorem Reached.framed {settings : Settings} {bound : Instance} {retain : Bool} {sink : Sink} {cursor : Nat}
    {w : Workspace} {env caller : Env} {address : Nat} {callee : Instance} {m : Machine}
    {rest : Machine → Course (Option Flow)}
    (h : Reached settings bound ⟨.empty retain, [], sink, cursor, w⟩
      (.carrying env address (.call caller callee m rest))) : m.Framed caller.activations := by
  obtain ⟨-, _, rfl, hm, -⟩ := (framed_kept .none settings).called (framed_start trivial ..) h
  exact hm

/-- What is known of frames is known at the end of a render. -/
theorem Frames.Invariant.final (hP : Frames.Invariant P) (i : Interpreter) {retain : Bool} (room : Option Nat)
    (bound : Instance) (w : Workspace) (h : P [] (.empty retain)) : P [] (i.final retain room bound w).frames := by
  obtain ⟨visits, hrender, -⟩ := render_ends i retain room bound w
  exact ((framed_kept hP _).invokes hrender (framed_start h ..)).2

end Stencil
