import Stencil.Proofs.Correctness
import Stencil.Proofs.Faces
import Stencil.Proofs.Matching
/-! Two renders of the same instances whose frames look the same. What single writes keep, whole instances
keep. -/

namespace Stencil

open Rendering

theorem Frames.SameFaces.diagnostic_eq {m m' : Machine} (h : m.frames.SameFaces m'.frames) (env : Env) (kind : Kind)
    (arguments causes : List String) : m.diagnostic env kind arguments causes = m'.diagnostic env kind arguments causes := by
  rw [Machine.diagnostic, Machine.diagnostic, h.callPath_eq]

/-- A relation of the states of two renders, for each outlet that they may write to. Frames look the same, stacks
may be any, and the relation is kept where the renders write, report and look up templates. All problems
may be reported, those with writers if it allows them. -/
structure Facing (settings : Settings) where
  Outlet : Type
  state : Outlet → Machine → Machine → Prop
  allowed : Kind → Prop
  allows : ∀ kind, kind ≠ .outputFailure → allowed kind
  faces : ∀ o m m', state o m m' → m.frames.SameFaces m'.frames
  withFrames : ∀ o m m' f f' stack stack', state o m m' → f.SameFaces f' →
    state o { m with frames := f, stack } { m' with frames := f', stack := stack' }
  report : ∀ o m m' env kind arguments causes, allowed kind → state o m m' →
    state o (m.report settings env kind arguments causes) (m'.report settings env kind arguments causes)
  writes : ∀ A o env text, Matched A (state o) (fun _ _ => True) (writeText settings env text)
    (writeText settings env text)
  captures : ∀ A {x y}, (∀ o, Matched A (state o) (fun _ _ => True) x y) →
    ∀ o, Matched A (state o) Eq (capture x) (capture y)
  resolves : ∀ A o name found, Matched A (state o) Eq (inWorkspace (Group.resolveFound name found))
    (inWorkspace (Group.resolveFound name found))

namespace Facing

variable {settings : Settings} (F : Facing settings)

/-- Both renders call the same instances. -/
def accord : Accord := fun env bound env' bound' kept => env = env' ∧ bound = bound' ∧ ∃ o, kept = F.state o

/-- An instance that runs in both. -/
def bond (env : Env) : Bond F.accord where
  settings := settings
  env := env
  env' := env
  bare := Eq
  Outlet := F.Outlet
  state := F.state
  allowed := F.allowed
  visited _ := True
  found _ _ := True
  inner _ := True
  abreast := .refl env
  here := .refl (fun _ => rfl) _
  program_eq _ _ h := congrArg Instance.program h
  usual := ⟨F.allows _ (by decide), F.allows _ (by decide), F.allows _ (by decide)⟩
  placed := trivial
  writes o place text _ := F.writes _ o (env.atPlace place) text
  report o place m m' kind arguments causes _ := F.report o m m' (env.atPlace place) kind arguments causes
  keepDefault o m m' name v _ hv h :=
    F.withFrames o m m' _ _ _ _ h (hv.eq ▸ (F.faces o m m' h).storeDefault env.scope name v)
  lookup o m m' name h := by
    rw [(F.faces o m m' h).lookup_eq]
    exact Value.Alike.refl_option (fun _ => rfl) _
  resolve callee o := by
    rw [resolve_eq]
    exact (F.resolves _ o _ _).mono fun _ _ hr => ⟨hr, trivial⟩
  fresh _ _ _ _ := rfl
  enclosed _ _ := rfl
  -- positions are only recorded, and nobody reads what is recorded
  near _ _ := True
  early := Eq
  captures := F.captures _
  positions _ _ _ _ := trivial
  early_true := rfl
  isEarly o m m' h := (F.faces o m m' h).isEarly_eq env.scope
  setEarly o m m' early _ he h :=
    F.withFrames o m m' _ _ _ _ h (he ▸ (F.faces o m m' h).setEarly env.scope early)
  record o m m' output output' source _ _ h := by
    simp only [Machine.changeFrames, (F.faces o m m' h).isEarly_eq]
    split
    · exact h
    · exact F.withFrames o m m' _ _ _ _ h ((F.faces o m m' h).recordWriting _ _)
  call o _ _ _ _ hb := ⟨rfl, hb.eq, o, rfl⟩

/-- Evaluating an instance keeps the relation. -/
theorem evaluate (r : Reading) (n : Nat) (caller : Option Env) (bound : Instance) {o : F.Outlet} {m m' : Machine}
    (h : F.state o m m') :
    (Rendering.evaluate r settings n caller bound m).Ends (fun _ _ => F.state o)
      (Rendering.evaluate r settings n caller bound m') := by
  induction n generalizing caller bound o m m' with
  | zero =>
    cases caller with
    | none => exact ⟨(), (), m, m', rfl, rfl, h⟩
    | some env => exact ⟨(), (), _, _, rfl, rfl, F.report o m m' env _ _ _ (F.allows _ (by decide)) h⟩
  | succ n ih =>
    obtain ⟨hscope, hframes⟩ := (F.faces o m m' h).enter (caller.map Env.scope) bound.name
    have henv : (m.enter caller bound).1 = (m'.enter caller bound).1 :=
      congrArg (fun scope => (⟨⟨bound, scope⟩, chain caller, none⟩ : Env)) hscope
    have hbody := runTree_matched (B := F.bond (m.enter caller bound).1) (r := r)
      (.inl ⟨fun _ => trivial, F.allows, fun _ => trivial⟩) o _ _ (F.withFrames o m m' _ _ m.stack m'.stack h hframes)
    have hrun (env : Env) (bound : Instance) (env' : Env) (bound' : Instance) (kept : Machine → Machine → Prop)
        (hacc : F.accord env bound env' bound' kept) (m m' : Machine) (hm : kept m m') :
        (Rendering.evaluate r settings n (some env) bound m).Ends (fun _ _ => kept)
          (Rendering.evaluate r settings n (some env') bound' m') := by
      obtain ⟨rfl, rfl, o, rfl⟩ := hacc
      exact ih (some env) bound hm
    rw [Rendering.evaluate, nest, inFrame_apply, inFrame_apply, ← henv]
    refine (hbody.handle hrun).bind fun _ _ k k' hk => ⟨(), (), _, _, rfl, rfl, ?_⟩
    exact F.withFrames o k k' _ _ _ _ hk.2 (((F.faces o k k' hk.2).recordCompletion _ _).exit _)

end Facing

end Stencil
