import Stencil.Proofs.Interchange
import Stencil.Proofs.Scoping
/-! Whole instances in two versions. A template stores its defaults and then runs its body, and both come to the same in
other words. So the two instances write the same texts, however deep their calls may go. -/

namespace Stencil

open Rendering

namespace Standpoint

variable (S : Standpoint)

/-- A state in which the callers of the instance stand as before, while its own frame is there. -/
structure Ends (m : Machine) : Prop where
  callers : m.Stands S.ledger S.frames S.env.callers
  live : S.env.scope < m.frames.size

variable {S}

theorem Ends.of_holds {m : Machine} (h : S.Holds m) : S.Ends m where
  callers := ⟨h.agrees, fun b hb => h.live b (List.mem_cons_of_mem _ hb),
    fun b hb => h.defaults b (List.mem_cons_of_mem _ hb)⟩
  live := h.live _ List.mem_cons_self

/-- A default of the instance is none of its callers'. -/
theorem Ends.of_stored (hlt : ∀ b ∈ S.env.callers, b.scope < S.env.scope) {name : String} {v : Value} {m : Machine}
    (h : Ends { S with frames := S.frames.storeDefault S.env.scope name v } m) : S.Ends m where
  callers := ⟨h.callers.agrees, h.callers.live, fun b hb key =>
    (h.callers.defaults b hb key).trans (S.frames.default?_storeDefault_of_ne (Nat.ne_of_gt (hlt b hb)) _ _ _)⟩
  live := h.live

theorem storeDefault (hl : S.env.scope < S.frames.size) (name : String) (v : Value) : Rendering.Does S.Holds
    (Holds { S with frames := S.frames.storeDefault S.env.scope name v })
    (handle S.run (Rendering.storeDefault S.env name v)) () [] := by
  refine .modify (fun m hm => ⟨hm.agrees.of_slots rfl, fun b hb => ?_, fun b hb key => ?_⟩) fun _ => rfl
  · exact Nat.lt_of_lt_of_eq (hm.live b hb) (m.frames.size_change _ _).symm
  · change (m.frames.storeDefault S.env.scope name v).default? b.scope key =
      (S.frames.storeDefault S.env.scope name v).default? b.scope key
    have hhere : S.env.scope < m.frames.size := hm.live S.env.here List.mem_cons_self
    by_cases hb' : S.env.scope = b.scope
    · rw [← hb', m.frames.default?_storeDefault hhere, S.frames.default?_storeDefault hl, hb',
        hm.defaults b hb]
    · rw [m.frames.default?_storeDefault_of_ne hb', S.frames.default?_storeDefault_of_ne hb', hm.defaults b hb]

end Standpoint

namespace Edition.Stage

variable {E : Edition} (T : E.Stage)

/-- The same instances with other defaults. -/
def within {f f' : Frames} (lined : E.Lined f f' T.env.activations T.env'.activations) : E.Stage :=
  { T with frames := f, frames' := f', lined }

/-- Two actions that come to the ends of the instances, and that write the same texts. -/
def Finishes (x y : Attempt Unit) : Prop := ∃ a b texts,
  Rendering.Does T.left.Holds T.left.Ends (handle T.left.run x.run) a texts ∧
    Rendering.Does T.right.Holds T.right.Ends (handle T.right.run y.run) b texts

variable {T}

theorem Finishes.of_attempted {x y : Attempt Unit} (h : T.Attempted (fun _ _ => True) x y) : T.Finishes x y := by
  obtain ⟨a, b, texts, -, hx, hy⟩ := h
  exact ⟨a, b, texts, hx.mono (fun _ h => h) fun _ => .of_holds, hy.mono (fun _ h => h) fun _ => .of_holds⟩

theorem Finishes.bind {α β : Type} {Q : α → β → Prop} {x : Attempt α} {y : Attempt β} {f : α → Attempt Unit}
    {g : β → Attempt Unit} (h : T.Attempted Q x y) (hf : ∀ a b, Q a b → T.Finishes (f a) (g b)) :
    T.Finishes (x >>= f) (y >>= g) := by
  obtain ⟨_, _, texts, hq, hx, hy⟩ := h
  cases hq with
  | none => exact ⟨_, _, _, .bind hx ((Rendering.Does.pure none).mono (fun _ h => h) fun _ => .of_holds),
      .bind hy ((Rendering.Does.pure none).mono (fun _ h => h) fun _ => .of_holds)⟩
  | some hq =>
    obtain ⟨a, b, more, hx', hy'⟩ := hf _ _ hq
    exact ⟨a, b, texts ++ more, .bind hx hx', .bind hy hy'⟩

theorem callers_lt : (∀ b ∈ T.env.callers, b.scope < T.env.scope) ∧ ∀ b ∈ T.env'.callers, b.scope < T.env'.scope := by
  have hsees := T.lined.sees
  rw [Env.activations, Env.activations] at hsees
  cases hsees with
  | cons _ lt lt' _ _ => exact ⟨lt, lt'⟩

/-- Alike defaults are stored before. -/
theorem Finishes.stored {x y : Attempt Unit} {name : String} {v v' : Value} (hv : v.Alike T.Bare v')
    (h : (T.within (T.lined.storeDefault name hv)).Finishes x y) :
    T.Finishes (Rendering.storeDefault T.env name v >>= fun _ => x)
      (Rendering.storeDefault T.env' name v' >>= fun _ => y) := by
  obtain ⟨a, b, texts, hx, hy⟩ := h
  obtain ⟨hlt, hlt'⟩ := T.callers_lt
  have hstore := Standpoint.storeDefault (S := T.left) (T.lined.live _ List.mem_cons_self) name v
  have hstore' := Standpoint.storeDefault (S := T.right) (T.lined.live' _ List.mem_cons_self) name v'
  refine ⟨a, b, [] ++ [] ++ texts, .bind (.bind hstore (.pure (some ()))) ?_,
    .bind (.bind hstore' (.pure (some ()))) ?_⟩
  · exact hx.mono (fun _ h => h) fun _ h => h.of_stored hlt
  · exact hy.mono (fun _ h => h) fun _ h => h.of_stored hlt'

/-- Defaults in other words are stored before. -/
theorem Finishes.evalDefaults {r r' : Reading} {o o' : Origin} (ho : o.inDefault = true) (ho' : o'.inDefault = true)
    {ds ds' : List (String × Expr)}
    (hds : List.Forall₂ (fun d d' => d.1 = d'.1 ∧ d.2.Rephrased T.naming false d'.2) ds ds')
    (hp : ∀ d ∈ ds, ∃ P, d.2.Proper P) (hp' : ∀ d ∈ ds', ∃ P, d.2.Proper P) {x y : Attempt Unit}
    (h : ∀ {f f' : Frames} (lined : E.Lined f f' T.env.activations T.env'.activations), (T.within lined).Finishes x y)
    (n n' : Nat) {f f' : Frames} (lined : E.Lined f f' T.env.activations T.env'.activations) :
    (T.within lined).Finishes (Stencil.evalDefaults r E.settings T.env o n ds >>= fun _ => x)
      (Stencil.evalDefaults r' E.settings' T.env' o' n' ds' >>= fun _ => y) := by
  induction hds generalizing n n' f f' with
  | nil => exact .bind (Q := fun _ _ => True) (.pure trivial) fun _ _ _ => h lined
  | @cons d d' ds ds' hd _ ih =>
    obtain ⟨name, e⟩ := d
    obtain ⟨name', e'⟩ := d'
    obtain ⟨rfl, he⟩ : name = name' ∧ e.Rephrased T.naming false e' := hd
    obtain ⟨⟨P, hP⟩, hp⟩ := List.forall_mem_cons.mp hp
    obtain ⟨⟨P', hP'⟩, hp'⟩ := List.forall_mem_cons.mp hp'
    have hallows {o : Origin} {P : Span → Prop} (ho : o.inDefault = true) : o.Allows P := fun s _ p hp => by
      simp [Origin.place, ho] at hp
    have hvalue : (T.within lined).Evenly r r' o o' e e' := he.eval (T := T.within lined) (hallows ho) (hallows ho') hP hP'
    rw [Stencil.evalDefaults, Stencil.evalDefaults, evalDefault, evalDefault, T.isPassed_eq]
    split
    · exact ih hp hp' _ _ lined
    · simp only [bind_assoc]
      refine .bind (hvalue n n') fun v v' hv => ?_
      exact .stored hv (ih hp hp' _ _ _)

theorem Finishes.template {t t' : Template} (h : t.Rephrased T.naming t') (hp : t.Proper) (hp' : t'.Proper)
    (r r' : Reading) : T.Finishes (t.eval r E.settings T.env) (t'.eval r' E.settings' T.env') := by
  obtain ⟨P, hP, hbody⟩ := hp.body
  obtain ⟨P', hP', hbody'⟩ := hp'.body
  exact .evalDefaults rfl rfl h.defaults hp.defaults hp'.defaults
    (fun lined => .of_attempted (h.body.eval (T := T.within lined) hP hP' hbody hbody' _ _)) _ _ T.lined

end Edition.Stage

/-! ## Calls of any depth -/

section

variable {ledger : List Note} {f : Frames} {as : List Activation} {settings : Settings} {n : Nat} {caller : Option Env}
  {bound : Instance} {texts : List String}

/-- Running a program does what evaluating its tree does. -/
theorem Rendering.Does.evaluate_iff (r : Reading) :
    Does (Machine.Stands ledger f as) (Machine.Stands ledger f as) (invoke settings n caller bound) () texts ↔
      Does (Machine.Stands ledger f as) (Machine.Stands ledger f as) (evaluate r settings n caller bound) () texts := by
  constructor
  all_goals
    intro h m hm
    obtain ⟨k, hk, hkeep, hs⟩ := h m hm
    obtain ⟨_, _, j, j', hj, hj', hleft⟩ := invoke_ends r settings n caller bound (m := m) rfl
    obtain ⟨-, hsink, -, -⟩ := Machine.still_eq_iff.mp hleft.still
  · cases hk.symm.trans hj
    exact ⟨j', hj', hkeep.of_still hleft.still, hsink ▸ hs⟩
  · cases hk.symm.trans hj'
    exact ⟨j, hj, hkeep.of_still hleft.still.symm, hsink ▸ hs⟩

/-- An instance does in its frame what its tree does there. -/
theorem Machine.Stands.evaluates {m : Machine} (hm : m.Stands ledger f (chain caller)) {r : Reading} {S : Standpoint}
    {a : Option Unit}
    (hS : S = ⟨settings, (m.enter caller bound).1, fun env bound => evaluate r settings n (some env) bound, ledger,
      (m.enter caller bound).2.frames⟩)
    (h : Does S.Holds S.Ends
      (handle S.run ((r.template bound.native bound.program).eval r settings S.env).run) a texts) :
    Does (fun j => j = { m with sink := j.sink }) (Machine.Stands ledger f (chain caller))
      (evaluate r settings (n + 1) caller bound) () texts := by
  subst hS
  intro j hj
  obtain ⟨s, rfl⟩ : ∃ s, j = { m with sink := s } := ⟨_, hj⟩
  obtain ⟨k, hk, ⟨hcallers, hlive⟩, hs⟩ := h { (m.enter caller bound).2 with sink := s }
    (hm.enter.congr rfl rfl fun _ _ _ => rfl)
  have hstands : k.Stands ledger f (chain caller) := ⟨hcallers.agrees, hcallers.live, fun b hb name =>
    (hcallers.defaults b hb name).trans ((hm.default?_enter name).2 b hb)⟩
  have hlt : ∀ b ∈ chain caller, b.scope < (m.enter caller bound).1.scope := hm.live
  exact ⟨_, evaluate_succ (handle_bind_of_done hk), hstands.leave hlt hlive _ _, hs⟩

end

/-- Instances in two versions write the same texts. -/
theorem Edition.invokes (E : Edition) (n : Nat) {caller caller' : Option Env} (hc : caller.isSome = caller'.isSome)
    {f f' : Frames} (lined : E.Lined f f' (chain caller) (chain caller')) {bound bound' : Instance}
    (hb : bound.Alike (E.Version (world (chain caller) (chain caller'))) bound') : ∃ texts,
      Does (Machine.Stands E.ledger f (chain caller)) (Machine.Stands E.ledger f (chain caller))
        (invoke E.settings n caller bound) () texts ∧
      Does (Machine.Stands E.ledger' f' (chain caller')) (Machine.Stands E.ledger' f' (chain caller'))
        (invoke E.settings' n caller' bound') () texts := by
  induction n generalizing caller caller' f f' bound bound' with
  | zero =>
    refine ⟨[], ?_⟩
    cases caller with
    | none =>
      cases caller' with
      | none => exact ⟨fun m hm => ⟨m, rfl, hm, rfl⟩, fun m hm => ⟨m, rfl, hm, rfl⟩⟩
      | some => cases hc
    | some env =>
      cases caller' with
      | none => cases hc
      | some env' =>
        exact ⟨fun m hm => ⟨_, rfl, hm.report _ _ _ _ _, rfl⟩, fun m hm => ⟨_, rfl, hm.report _ _ _ _ _, rfl⟩⟩
  | succ n ih =>
    obtain ⟨t, t', ht, ht', hrephrased⟩ := (Edition.Version.of_alike hb).program
    obtain ⟨r, hr⟩ := Reading.preferring fun _ u => u = t
    obtain ⟨r', hr'⟩ := Reading.preferring fun _ u => u = t'
    have htree := hr bound.native bound.program t ht rfl
    have htree' := hr' bound'.native bound'.program t' ht' rfl
    have hcalls : E.Calls (fun env bound => evaluate r E.settings n (some env) bound)
        (fun env bound => evaluate r' E.settings' n (some env) bound) := fun {_ _ env env' _ _} lined hb => by
      have hboth : (some env).isSome = (some env').isSome := rfl
      obtain ⟨texts, hx, hy⟩ := ih hboth lined hb
      exact ⟨texts, (Does.evaluate_iff r).mp hx, (Does.evaluate_iff r').mp hy⟩
    obtain ⟨texts, hx, hy⟩ := Does.uniform lined.stands.1 lined.stands.2 fun m m' hm hm' => by
      let T : E.Stage := ⟨_, _, _, _, _, _, lined.enter hb hm hm', hcalls⟩
      obtain ⟨a, b, texts, hx, hy⟩ := Edition.Stage.Finishes.template (T := T) hrephrased ht.proper ht'.proper r r'
      rw [← htree] at hx
      rw [← htree'] at hy
      exact ⟨texts, hm.evaluates rfl hx, hm'.evaluates rfl hy⟩
    exact ⟨texts, (Does.evaluate_iff r).mpr hx, (Does.evaluate_iff r').mpr hy⟩

end Stencil
