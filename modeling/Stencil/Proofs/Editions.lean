import Stencil.Proofs.Outcomes
import Stencil.Proofs.Twins
import Stencil.Proofs.Versions
/-! Two renders of groups in two versions. Their states have nothing to do with each other. But what a name reads as in
the one is like what it reads as in the other, and what is called writes the same in both. -/

namespace Stencil

open Rendering

/-! ## Relations of attempts -/

namespace Relating

variable (R : Relating) {α β γ δ : Type} {P : α → β → Prop} {Q : γ → δ → Prop}

/-- Both attempts fail, or both give values, which are related. -/
abbrev Attempted (Q : α → β → Prop) (x : Attempt α) (y : Attempt β) : Prop := R.rel (Option.Rel Q) x.run y.run

variable {R}

theorem Attempted.pure {a : γ} {b : δ} (h : Q a b) : R.Attempted Q (Pure.pure a) (Pure.pure b) := R.pure (.some h)

theorem Attempted.failure : R.Attempted Q (failure : Attempt γ) (failure : Attempt δ) := R.pure .none

theorem Attempted.bind {x : Attempt α} {y : Attempt β} {f : α → Attempt γ} {g : β → Attempt δ}
    (h : R.Attempted P x y) (hf : ∀ a b, P a b → R.Attempted Q (f a) (g b)) : R.Attempted Q (x >>= f) (y >>= g) :=
  R.bind h fun
    | _, _, .some h => hf _ _ h
    | _, _, .none => R.pure .none

theorem Attempted.lift {x : Rendering γ} {y : Rendering δ} (h : R.rel Q x y) : R.Attempted Q (liftM x) (liftM y) :=
  R.bind h fun _ _ h => R.pure (.some h)

end Relating

/-! ## Chains that see alike values -/

variable {J : List (Nat × Nat) → Instance → Instance → Prop} {a a' : Activation} {as as' : List Activation}
  {f f' g g' : Frames}

namespace Sees

theorem here (hJ : Worldly J) (h : Sees J f f' (a :: as) (a' :: as')) :
    a.bound.Alike (J (world (a :: as) (a' :: as'))) a'.bound := by
  cases h with
  | cons bound => exact bound.mono (hJ.mono (List.subset_cons_self _ _))

/-- Only the defaults of the chains matter. -/
theorem congr (h : Sees J f f' as as') (hg : ∀ b ∈ as, ∀ name, g.default? b.scope name = f.default? b.scope name)
    (hg' : ∀ b ∈ as', ∀ name, g'.default? b.scope name = f'.default? b.scope name) : Sees J g g' as as' := by
  induction h with
  | nil => exact .nil
  | cons bound lt lt' defaults _ ih =>
    obtain ⟨hh, ht⟩ := List.forall_mem_cons.mp hg
    obtain ⟨hh', ht'⟩ := List.forall_mem_cons.mp hg'
    exact .cons bound lt lt' (fun name => hh name ▸ hh' name ▸ defaults name) (ih ht ht')

end Sees

theorem Frames.default?_storeDefault (f : Frames) {scope : Nat} (h : scope < f.size) (name other : String) (v : Value) :
    (f.storeDefault scope name v).default? scope other = if other = name then some v else f.default? scope other := by
  obtain ⟨frame, hf⟩ : ∃ frame, f.get? scope = some frame := ⟨_, Array.getElem?_eq_getElem h⟩
  rw [default?, storeDefault, get?_change, if_pos rfl, default?, hf]
  split
  · next he => exact he ▸ Dict.find?_insert_self _ _ _
  · next hne => exact Dict.find?_insert_of_ne _ _ hne

theorem Frames.default?_storeDefault_of_ne (f : Frames) {scope other : Nat} (h : scope ≠ other) (name key : String)
    (v : Value) : (f.storeDefault scope name v).default? other key = f.default? other key := by
  rw [default?, storeDefault, get?_change, if_neg h, default?]

/-! ## Editions -/

/-- Renders of groups in two versions, of which the workspaces agree with what is noted. -/
structure Edition where
  settings : Settings
  settings' : Settings
  ledger : List Note
  ledger' : List Note
  groups : settings.group.Rephrases settings.group settings'.group
  recorded : ∀ g ∈ settings.group.tree, g.Recorded ledger
  recorded' : ∀ g ∈ settings'.group.tree, g.Recorded ledger'
  agrees : ∃ w : Workspace, w.Agrees ledger
  agrees' : ∃ w : Workspace, w.Agrees ledger'

namespace Edition

variable (E : Edition)

/-- Instances of a template in two versions. A world relates the frames of the instances that they belong to. -/
structure Version (w : List (Nat × Nat)) (i i' : Instance) : Prop where
  native : E.settings.group.Rephrases i.native i'.native
  recorded : ∀ g ∈ i.native.tree, g.Recorded E.ledger
  recorded' : ∀ g ∈ i'.native.tree, g.Recorded E.ledger'
  program : i.program.Rephrased (E.settings.group.naming i.native) i'.program
  enclosing : Option.Rel (fun scope scope' => (scope, scope') ∈ w) i.enclosing i'.enclosing

theorem version_worldly : Worldly E.Version where
  mono hw _ _ h := ⟨h.native, h.recorded, h.recorded', h.program, rel_mono (fun _ _ hm => hw hm) h.enclosing⟩
  enclosing h := h.enclosing

variable {E} in
theorem Version.of_alike {w : List (Nat × Nat)} {i i' : Instance} (h : i.Alike (E.Version w) i') :
    E.Version w i i' := by
  cases h with
  | mk hb _ => exact ⟨hb.native, hb.recorded, hb.recorded', hb.program, hb.enclosing⟩

/-- Two chains of instances in two versions, whose frames are there. -/
structure Lined (f f' : Frames) (as as' : List Activation) : Prop where
  sees : Sees E.Version f f' as as'
  live : ∀ a ∈ as, a.scope < f.size
  live' : ∀ a ∈ as', a.scope < f'.size

namespace Lined

variable {E}

theorem here (h : E.Lined f f' (a :: as) (a' :: as')) :
    a.bound.Alike (E.Version (world (a :: as) (a' :: as'))) a'.bound := h.sees.here E.version_worldly

/-- There are states in which the chains stand. -/
theorem stands (h : E.Lined f f' as as') : (∃ m, Machine.Stands E.ledger f as m) ∧
    ∃ m, Machine.Stands E.ledger' f' as' m := by
  obtain ⟨w, hw⟩ := E.agrees
  obtain ⟨w', hw'⟩ := E.agrees'
  exact ⟨⟨_, .of_frames hw h.live (.scratch 0)⟩, ⟨_, .of_frames hw' h.live' (.scratch 0)⟩⟩

/-- The chains with instances that the innermost ones call. -/
theorem enter {caller caller' : Option Env} {bound bound' : Instance} (h : E.Lined f f' (chain caller) (chain caller'))
    (hb : bound.Alike (E.Version (world (chain caller) (chain caller'))) bound') {m m' : Machine}
    (hm : m.Stands E.ledger f (chain caller)) (hm' : m'.Stands E.ledger' f' (chain caller')) :
    E.Lined (m.enter caller bound).2.frames (m'.enter caller' bound').2.frames
      (m.enter caller bound).1.activations (m'.enter caller' bound').1.activations where
  sees := by
    refine .cons hb hm.live hm'.live (fun name => ?_) (h.sees.congr (fun b hb name => (hm.default?_enter name).2 b hb)
      fun b hb name => (hm'.default?_enter name).2 b hb)
    have hnone : (m.enter caller bound).2.frames.default? m.frames.size name = none := (hm.default?_enter name).1
    have hnone' : (m'.enter caller' bound').2.frames.default? m'.frames.size name = none := (hm'.default?_enter name).1
    change Option.Rel _ ((m.enter caller bound).2.frames.default? m.frames.size name)
      ((m'.enter caller' bound').2.frames.default? m'.frames.size name)
    rw [hnone, hnone']
    exact .none
  live := hm.enter.live
  live' := hm'.enter.live

/-- Alike values become defaults of the innermost instances. -/
theorem storeDefault (h : E.Lined f f' (a :: as) (a' :: as')) (name : String) {v v' : Value}
    (hv : v.Alike (E.Version (world (a :: as) (a' :: as'))) v') :
    E.Lined (f.storeDefault a.scope name v) (f'.storeDefault a'.scope name v') (a :: as) (a' :: as') := by
  obtain ⟨hsees, hlive, hlive'⟩ := h
  cases hsees with
  | cons bound lt lt' defaults outer =>
    refine ⟨.cons bound lt lt' (fun other => ?_) (outer.congr (fun b hb other => ?_) fun b hb other => ?_), ?_, ?_⟩
    · rw [f.default?_storeDefault (hlive a List.mem_cons_self), f'.default?_storeDefault (hlive' a' List.mem_cons_self)]
      split
      · exact .some hv
      · exact defaults other
    · exact f.default?_storeDefault_of_ne (Nat.ne_of_gt (lt b hb)) _ _ _
    · exact f'.default?_storeDefault_of_ne (Nat.ne_of_gt (lt' b hb)) _ _ _
    · exact fun b hb => Nat.lt_of_lt_of_eq (hlive b hb) (f.size_change _ _).symm
    · exact fun b hb => Nat.lt_of_lt_of_eq (hlive' b hb) (f'.size_change _ _).symm

end Lined

theorem handle_call (run : Env → Instance → Rendering Unit) (env : Env) (bound : Instance) :
    handle run (call env bound) = run env bound := funext fun m => Course.bind_done (run env bound m)

/-- Whatever alike instances are called side by side write the same texts. -/
def Calls (run run' : Env → Instance → Rendering Unit) : Prop :=
  ∀ {f f' : Frames} {env env' : Env} {bound bound' : Instance}, E.Lined f f' env.activations env'.activations →
    bound.Alike (E.Version (world env.activations env'.activations)) bound' → ∃ texts,
      Does (Machine.Stands E.ledger f env.activations) (Machine.Stands E.ledger f env.activations)
        (run env bound) () texts ∧
      Does (Machine.Stands E.ledger' f' env'.activations) (Machine.Stands E.ledger' f' env'.activations)
        (run' env' bound') () texts

/-- Two instances that run side by side. -/
structure Stage where
  env : Env
  env' : Env
  frames : Frames
  frames' : Frames
  run : Env → Instance → Rendering Unit
  run' : Env → Instance → Rendering Unit
  lined : E.Lined frames frames' env.activations env'.activations
  calls : E.Calls run run'

namespace Stage

variable {E} (T : E.Stage)

/-- The instance in the one render. -/
def left : Standpoint := ⟨E.settings, T.env, T.run, E.ledger, T.frames⟩

/-- The instance in the other render. -/
def right : Standpoint := ⟨E.settings', T.env', T.run', E.ledger', T.frames'⟩

/-- Instances of a template in two versions that may belong to those that run. -/
abbrev Bare : Instance → Instance → Prop := E.Version (world T.env.activations T.env'.activations)

/-- The same instances carry out other regions of source. -/
def atPlace (place place' : Option Span) : E.Stage :=
  { T with env := T.env.atPlace place, env' := T.env'.atPlace place' }

theorem here : T.env.here.bound.Alike T.Bare T.env'.here.bound := T.lined.here

variable {α β : Type}

/-- Two actions that come to related values and write the same texts, each on its own side. -/
def relating : Relating where
  rel Q x y := ∃ a b texts, Q a b ∧ T.left.Does x a texts ∧ T.right.Does y b texts
  pure h := ⟨_, _, [], h, .pure _, .pure _⟩
  bind h hf := by
    obtain ⟨a, b, texts, hp, hx, hy⟩ := h
    obtain ⟨c, d, more, hq, hx', hy'⟩ := hf a b hp
    exact ⟨c, d, texts ++ more, hq, hx.bind hx', hy.bind hy'⟩

abbrev Even (Q : α → β → Prop) (x : Rendering α) (y : Rendering β) : Prop := T.relating.rel Q x y

abbrev Attempted (Q : α → β → Prop) (x : Attempt α) (y : Attempt β) : Prop := T.relating.Attempted Q x y

/-! ## Single steps -/

theorem report (kind kind' : Kind) (arguments arguments' causes causes' : List String) :
    T.Even (fun _ _ => True) (Rendering.report E.settings T.env kind arguments causes)
      (Rendering.report E.settings' T.env' kind' arguments' causes') :=
  ⟨(), (), [], trivial, T.left.report kind arguments causes, T.right.report kind' arguments' causes'⟩

theorem writeText (s : String) : T.Even (fun _ _ => True) (Rendering.writeText E.settings T.env s)
    (Rendering.writeText E.settings' T.env' s) :=
  ⟨(), (), [s], trivial, T.left.writeText s, T.right.writeText s⟩

/-- Texts and scalars are written evenly. -/
def pen : Pen T.relating where
  settings := E.settings
  settings' := E.settings'
  env := T.env
  env' := T.env'
  text := T.writeText
  scalar := T.relating.writeScalar (fun kind => E.groups.renderer?_eq kind) T.writeText
    fun _ _ => T.report _ _ _ _ _ _

theorem bonds : T.pen.Bonds T.Bare where
  capture h := by
    obtain ⟨_, _, texts, -, hx, hy⟩ := h
    exact ⟨_, _, [], rfl, hx.capture, hy.capture⟩
  call hi := by
    obtain ⟨texts, hx, hy⟩ := T.calls T.lined hi
    rw [← handle_call T.run T.env] at hx
    rw [← handle_call T.run' T.env'] at hy
    exact ⟨(), (), texts, trivial, hx, hy⟩

theorem readAttribute (name : String) : T.Even (Value.Alike T.Bare) (Rendering.readAttribute T.env name)
    (Rendering.readAttribute T.env' name) :=
  ⟨_, _, [], .getD (T.lined.sees.lookup E.version_worldly name .none), T.left.readAttribute name,
    T.right.readAttribute name⟩

end Stage

end Edition

end Stencil
