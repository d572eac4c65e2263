import Stencil.Proofs.Matching
import Stencil.Proofs.Starts
import Stencil.Proofs.Twins
/-! Templates without a name see the instance that created them. Frames are numbered anew when they were
dropped, so a render is compared with one that retains frames, in which numbers tell instances apart. -/

namespace Stencil

open Rendering

/-! ## Frames of two renders -/

/-- Instances that start in the same place of two renders. -/
structure Start.Twin (s s' : Start) : Prop where
  kin : Kin s.env.activations s'.env.activations
  frames : s.frames.Paired s'.frames s.env.activations s'.env.activations

variable {m m' : Machine} {caller caller' : Option Env} {bound bound' : Instance}

theorem head?_chain (caller : Option Env) :
    caller.map Env.scope = (chain caller).head?.map Activation.scope := by
  cases caller <;> rfl

theorem Beside.kin_enter (hk : Kin (chain caller) (chain caller'))
    (hb : bound.Alike (Instance.Twin (world (chain caller) (chain caller'))) bound')
    (h : Beside (chain caller) (chain caller') m m') :
    Kin (m.enter caller bound).1.activations (m'.enter caller' bound').1.activations :=
  .cons hb h.frames.left.lt_size h.frames.right.lt_size hk

theorem Beside.enter (h : Beside (chain caller) (chain caller') m m') :
    Beside (m.enter caller bound).1.activations (m'.enter caller' bound').1.activations
      (m.enter caller bound).2 (m'.enter caller' bound').2 where
  frames := by
    have hf := h.frames.enter bound bound'
    rw [← head?_chain, ← head?_chain] at hf
    exact hf
  retained := h.retained
  sink := h.sink
  cursor := h.cursor
  workspace := h.workspace

theorem Beside.leave {env env' : Env} (hk : Kin env.activations env'.activations)
    (h : Beside env.activations env'.activations m m') (start start' height height' : Nat) :
    Beside env.callers env'.callers (m.leave env start height) (m'.leave env' start' height') where
  frames := h.frames.exit hk _ _
  retained := (Frames.retained_exit _ _).trans ((m'.frames.retained_recordCompletion _).trans h.retained)
  sink := h.sink
  cursor := h.cursor
  workspace := h.workspace

theorem Machine.size_leave (h : m.frames.retained = true) (env : Env) (start height : Nat) :
    (m.leave env start height).frames.size = m.frames.size := by
  simp only [leave, changeFrames]
  rw [Frames.exit_retained _ ((m.frames.retained_recordCompletion _).trans h), Frames.size_recordCompletion]

/-- Two renders of an instance end beside one another and start instances in the same places, which the
one that retains frames numbers. -/
structure Abreast (r : Reading) (settings : Settings) (n : Nat) (caller caller' : Option Env)
    (bound bound' : Instance) (m m' : Machine) : Prop where
  ends : (evaluate r settings n caller bound m).Ends
    (fun _ _ => Beside (chain caller) (chain caller')) (evaluate r settings n caller' bound' m')
  twins : List.Forall₂ Start.Twin (starts settings (runTree r settings) n caller bound m)
    (starts settings (runTree r settings) n caller' bound' m')
  numbered : Numbered (chain caller') m'.frames.size (starts settings (runTree r settings) n caller' bound' m')
    (evaluate r settings n caller' bound' m').machine

theorem evaluate_succ {r : Reading} {settings : Settings} {n : Nat} {a : Unit} {k : Machine}
    (h : (runTree r settings (m.enter caller bound).1 (m.enter caller bound).2).handle
      (fun env bound => evaluate r settings n (some env) bound) = .done a k) :
    evaluate r settings (n + 1) caller bound m =
      .done () (k.leave (m.enter caller bound).1 m.sink.position m.stack.length) :=
  congrArg (Course.bind fun _ k =>
    .done () (k.leave (m.enter caller bound).1 m.sink.position m.stack.length)) h

theorem evaluate_abreast (r : Reading) (settings : Settings) (n : Nat)
    (hk : Kin (chain caller) (chain caller')) (hp : caller.bind Env.place = caller'.bind Env.place)
    (hb : bound.Alike (Instance.Twin (world (chain caller) (chain caller'))) bound')
    (h : Beside (chain caller) (chain caller') m m') :
    Abreast r settings n caller caller' bound bound' m m' := by
  induction n generalizing caller caller' bound bound' m m' with
  | zero =>
    cases caller with
    | none =>
      cases caller' with
      | none => exact ⟨⟨(), (), m, m', rfl, rfl, h⟩, .nil, rfl, rfl, nofun⟩
      | some env' => cases hk
    | some env =>
      cases caller' with
      | none => cases hk
      | some env' =>
        obtain ⟨here', callers', place'⟩ := env'
        cases hp
        have hn : bound.name = bound'.name := congrArg (fun p : Program => p.name) hb.twin.program
        have hr := (twinTie settings hk rfl).report env.place m m' .recursionLimit
          [toString settings.depthLimit, bound.name] [] trivial h
        refine ⟨⟨(), (), _, _, rfl, rfl, ?_⟩, .nil, rfl, rfl, nofun⟩
        rw [← hn]
        exact hr
  | succ n ih =>
    have hkin := h.kin_enter hk hb
    generalize has : (m.enter caller bound).1.activations = as,
      has' : (m'.enter caller' bound').1.activations = as' at hkin
    have hrun (env : Env) (bound : Instance) (env' : Env) (bound' : Instance)
        (kept : Machine → Machine → Prop) (hc : twinAccord as as' env bound env' bound' kept)
        (m m' : Machine) (hm : kept m m') : (evaluate r settings n (some env) bound m).Ends
            (fun _ _ => kept) (evaluate r settings n (some env') bound' m') ∧
          List.Forall₂ Start.Twin (starts settings (runTree r settings) n (some env) bound m)
            (starts settings (runTree r settings) n (some env') bound' m') ∧
          Numbered as' m'.frames.size (starts settings (runTree r settings) n (some env') bound' m')
            (evaluate r settings n (some env') bound' m').machine := by
      obtain ⟨rfl, rfl, hp, hb, rfl⟩ := hc
      have ha : Abreast r settings n (some env) (some env') bound bound' m m' := ih hkin hp hb hm
      exact ⟨ha.ends, ha.twins, ha.numbered⟩
    subst has has'
    have hbody := runTree_matched (B := (twinTie settings hkin rfl).bond) (r := r)
      (.inl ⟨fun _ => trivial, fun _ _ => trivial, fun _ => trivial⟩) () _ _ h.enter
    obtain ⟨_, _, k, k', hdone, hdone', -, hk'⟩ := hbody.handle fun env bound env' bound' kept hc m m' hm =>
      (hrun env bound env' bound' kept hc m m' hm).1
    refine ⟨⟨(), (), _, _, evaluate_succ hdone, evaluate_succ hdone', hk'.leave hkin _ _ _ _⟩,
      .cons ⟨hkin, h.enter.frames⟩ ?_, ?_⟩
    · exact hbody.collect fun env bound env' bound' kept hc m m' hm =>
        ⟨(hrun env bound env' bound' kept hc m m' hm).1, (hrun env bound env' bound' kept hc m m' hm).2.1⟩
    · have hnum := hbody.numbered fun env bound env' bound' kept hc m m' hm =>
        ⟨(hrun env bound env' bound' kept hc m m' hm).1, (hrun env bound env' bound' kept hc m m' hm).2.2⟩
      rw [hdone'] at hnum
      rw [evaluate_succ hdone']
      have hfirst : Numbered (m'.enter caller' bound').1.activations m'.frames.size
          [⟨(m'.enter caller' bound').1, (m'.enter caller' bound').2.frames⟩] (m'.enter caller' bound').2 :=
        ⟨rfl, m'.frames.size_enter _ _, fun s hs a ha => by
          cases List.mem_singleton.mp hs
          exact .inl ha⟩
      have hall := hfirst.append hnum
      refine ⟨hall.numbers, (k'.size_leave hk'.retained _ _ _).trans hall.size, fun s hs a ha => ?_⟩
      rcases hall.known s hs a ha with ha | ht
      · rcases List.mem_cons.mp ha with rfl | ha
        · exact .inr ⟨_, List.mem_cons_self, rfl⟩
        · exact .inl ha
      · exact .inr ht

/-! ## What is around an instance -/

/-- The activations around the innermost one of a chain, that one first, up to one of a template with a
name. The second chain is the same in a render that retains frames. There, an instance has the number
of the activation that created it; here, it is found by its number in the same place, behind others. -/
inductive Around : List Activation → List Activation → List Activation → Prop where
  | named {a a' as as'} (h : a.bound.enclosing = none) (h' : a'.bound.enclosing = none) :
      Around (a :: as) (a' :: as') [a]
  | within {a a' c c' skipped skipped' as as' outer} (h : a.bound.enclosing = some c.scope)
      (h' : a'.bound.enclosing = some c'.scope) (hlen : skipped.length = skipped'.length)
      (hne : ∀ b ∈ skipped, b.scope ≠ c.scope) (ho : Around (c :: as) (c' :: as') outer) :
      Around (a :: (skipped ++ c :: as)) (a' :: (skipped' ++ c' :: as')) (a :: outer)

variable {a a' : Activation} {as as' : List Activation}

/-- Frames that a world relates are those of activations in the same place. -/
theorem Kin.split (hk : Kin as as') {s s' : Nat} (hm : (s, s') ∈ world as as') :
    ∃ skipped c rest skipped' c' rest', as = skipped ++ c :: rest ∧ as' = skipped' ++ c' :: rest' ∧
      skipped.length = skipped'.length ∧ c.scope = s ∧ c'.scope = s' ∧ (∀ b ∈ skipped, b.scope ≠ s) ∧
      Kin (c :: rest) (c' :: rest') := by
  induction hk with
  | nil => cases hm
  | @cons a a' as as' bound lt lt' outer ih =>
    rcases List.mem_cons.mp hm with he | hm
    · cases he
      exact ⟨[], a, as, [], a', as', rfl, rfl, rfl, rfl, rfl, nofun, .cons bound lt lt' outer⟩
    · obtain ⟨skipped, c, rest, skipped', c', rest', rfl, rfl, hlen, rfl, rfl, hne, hk⟩ := ih hm
      refine ⟨a :: skipped, c, rest, a' :: skipped', c', rest', rfl, rfl, congrArg (· + 1) hlen, rfl, rfl,
        List.forall_mem_cons.mpr ⟨?_, hne⟩, hk⟩
      exact Nat.ne_of_gt (lt c (List.mem_append_right _ List.mem_cons_self))

/-- Creators are never missed. -/
theorem Kin.around (hk : Kin (a :: as) (a' :: as')) : ∃ outer, Around (a :: as) (a' :: as') outer := by
  generalize hn : as.length = n
  induction n using Nat.strongRecOn generalizing a a' as as' with
  | ind n ih =>
    cases hk with
    | cons bound lt lt' outer =>
      have he := bound.twin.enclosing
      generalize hs : a.bound.enclosing = s, hs' : a'.bound.enclosing = s' at he
      cases he with
      | none => exact ⟨[a], .named hs hs'⟩
      | some hm =>
        obtain ⟨skipped, c, rest, skipped', c', rest', rfl, rfl, hlen, rfl, rfl, hne, hk⟩ := outer.split hm
        have hlt : rest.length < n := by
          rw [← hn, List.length_append, List.length_cons]
          omega
        obtain ⟨outer, ho⟩ := ih _ hlt hk rfl
        exact ⟨a :: outer, .within hs hs' hlen hne ho⟩

theorem lookupFrom_skip (frames : Frames) (name : String) {scope : Nat} {skipped : List Activation}
    (h : ∀ b ∈ skipped, b.scope ≠ scope) (as : List Activation) :
    lookupFrom frames name (some scope) (skipped ++ as) = lookupFrom frames name (some scope) as := by
  induction skipped with
  | nil => rfl
  | cons b skipped ih =>
    obtain ⟨hb, hs⟩ := List.forall_mem_cons.mp h
    rw [List.cons_append, lookupFrom_past frames name (Ne.symm hb), ih hs]

/-- Looking up a name goes through the activations around an instance and no others. -/
theorem Around.lookup {outer : List Activation} (h : Around as as' outer) (frames : Frames)
    (name : String) :
    lookupFrom frames name none as = outer.findSome? fun a => a.own? frames name := by
  induction h with
  | named h _ =>
    rw [lookupFrom_here frames name rfl, h, List.findSome?_singleton]
    exact Option.or_none
  | @within a a' c c' skipped skipped' as as' outer h _ _ hne _ ih =>
    have hc : lookupFrom frames name (some c.scope) (c :: as) = lookupFrom frames name none (c :: as) := by
      rw [lookupFrom_here frames name (beq_self_eq_true _), lookupFrom_here frames name rfl]
    rw [lookupFrom_here frames name rfl, h, Option.bind_some, lookupFrom_skip frames name hne, hc, ih,
      List.findSome?_cons]
    cases a.own? frames name <;> rfl

/-! ## Renders of instances that a host built -/

/-- No template in an instance, nor in its attributes at any depth, belongs to a frame. -/
def Instance.HostBuilt (i : Instance) : Prop := i.Alike (fun j j' => j = j' ∧ j.enclosing = none) i

theorem Instance.HostBuilt.twin {i : Instance} (h : i.HostBuilt) (w : List (Nat × Nat)) :
    i.Alike (Instance.Twin w) i :=
  h.mono fun j j' ⟨he, hn⟩ => he ▸ ⟨rfl, rfl, rfl, by rw [hn]; exact .none⟩

theorem Kin.ordered (h : Kin as as') : as.Pairwise fun a b => b.scope < a.scope := by
  induction h with
  | nil => exact .nil
  | cons _ lt _ _ ih => exact .cons lt ih

end Stencil
