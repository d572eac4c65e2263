import Stencil.Proofs.Course
/-! Two renders side by side. They are coupled if they call instances in the same places, from states
that are related, and come to related ends. -/

namespace Stencil

/-- Which instances two renders may call side by side, with a relation of states that holds before the
calls and that the calls have to keep. -/
abbrev Accord := Env → Instance → Env → Instance → (Machine → Machine → Prop) → Prop

variable {α β γ δ : Type} {A : Accord}

/-- Two courses that call instances as an accord says and come to related ends. They lack nothing, and
up to the next call the second one keeps its number of frames. -/
inductive Course.Similar (A : Accord) (post : α → β → Machine → Machine → Prop) :
    Nat → Course α → Course β → Prop where
  | done {n a b m m'} (h : post a b m m') (hn : m'.frames.size = n) :
      Similar A post n (.done a m) (.done b m')
  | call {n env bound m rest env' bound' m' rest'} {kept : Machine → Machine → Prop}
      (h : A env bound env' bound' kept) (hm : kept m m') (hn : m'.frames.size = n)
      (hrest : ∀ m m', kept m m' → Similar A post m'.frames.size (rest m) (rest' m')) :
      Similar A post n (.call env bound m rest) (.call env' bound' m' rest')

/-- Two courses that are done, in related ends. -/
def Course.Ends (post : α → β → Machine → Machine → Prop) (c : Course α) (c' : Course β) : Prop :=
  ∃ a b m m', c = .done a m ∧ c' = .done b m' ∧ post a b m m'

namespace Course

theorem Similar.bind {mid : α → β → Machine → Machine → Prop}
    {post : γ → δ → Machine → Machine → Prop} {n : Nat} {c : Course α} {c' : Course β}
    {f : α → Machine → Course γ} {g : β → Machine → Course δ} (h : c.Similar A mid n c')
    (hf : ∀ a b m m', mid a b m m' → (f a m).Similar A post m'.frames.size (g b m')) :
    (c.bind f).Similar A post n (c'.bind g) := by
  induction h with
  | done h hn => exact hn ▸ hf _ _ _ _ h
  | call h hm hn _ ih => exact .call h hm hn ih

theorem Similar.mono {post post' : α → β → Machine → Machine → Prop} {n : Nat} {c : Course α}
    {c' : Course β} (h : c.Similar A post n c')
    (hp : ∀ a b m m', post a b m m' → post' a b m m') : c.Similar A post' n c' := by
  induction h with
  | done h hn => exact .done (hp _ _ _ _ h) hn
  | call h hm hn _ ih => exact .call h hm hn ih

theorem Ends.bind {mid : α → β → Machine → Machine → Prop} {post : γ → δ → Machine → Machine → Prop}
    {c : Course α} {c' : Course β} {f : α → Machine → Course γ} {g : β → Machine → Course δ}
    (h : c.Ends mid c') (hf : ∀ a b m m', mid a b m m' → (f a m).Ends post (g b m')) :
    (c.bind f).Ends post (c'.bind g) := by
  obtain ⟨a, b, m, m', rfl, rfl, h⟩ := h
  exact hf a b m m' h

theorem Ends.mono {post post' : α → β → Machine → Machine → Prop} {c : Course α} {c' : Course β}
    (h : c.Ends post c') (hp : ∀ a b m m', post a b m m' → post' a b m m') : c.Ends post' c' := by
  obtain ⟨a, b, m, m', hc, hc', h⟩ := h
  exact ⟨a, b, m, m', hc, hc', hp _ _ _ _ h⟩

/-- Similar courses are done when the instances that they call are run, if the runs are done and keep
what the accord wants to be kept. -/
theorem Similar.handle {post : α → β → Machine → Machine → Prop} {n : Nat} {c : Course α} {c' : Course β}
    {run run' : Env → Instance → Machine → Course Unit} (h : c.Similar A post n c')
    (hrun : ∀ env bound env' bound' kept, A env bound env' bound' kept → ∀ m m', kept m m' →
      (run env bound m).Ends (fun _ _ => kept) (run' env' bound' m')) :
    (c.handle run).Ends post (c'.handle run') := by
  induction h with
  | done h => exact ⟨_, _, _, _, rfl, rfl, h⟩
  | call h hm _ _ ih => exact (hrun _ _ _ _ _ h _ _ hm).bind fun _ _ m m' hk => ih m m' hk

end Course

namespace Rendering

/-- Two actions that stay side by side from any states that `pre` relates. -/
def Coupled (A : Accord) (pre : Machine → Machine → Prop) (x : Rendering α) (y : Rendering β)
    (post : α → β → Machine → Machine → Prop) : Prop :=
  ∀ m m', pre m m' → (x m).Similar A post m'.frames.size (y m')

/-- Two actions that stay side by side, keep a relation of states and give related values. -/
abbrev Matched (A : Accord) (R : Machine → Machine → Prop) (Q : α → β → Prop) (x : Rendering α)
    (y : Rendering β) : Prop :=
  Coupled A R x y fun a b m m' => Q a b ∧ R m m'

namespace Coupled

variable {pre : Machine → Machine → Prop} {post : γ → δ → Machine → Machine → Prop}
  {mid : α → β → Machine → Machine → Prop} {x : Rendering α} {y : Rendering β}

theorem pure {a : γ} {b : δ} (h : ∀ m m', pre m m' → post a b m m') :
    Coupled A pre (pure a) (pure b) post :=
  fun m m' hm => .done (h m m' hm) rfl

theorem bind {f : α → Rendering γ} {g : β → Rendering δ} (h : Coupled A pre x y mid)
    (hf : ∀ a b, Coupled A (mid a b) (f a) (g b) post) :
    Coupled A pre (x >>= f) (y >>= g) post :=
  fun m m' hm => (h m m' hm).bind fun a b m m' h => hf a b m m' h

end Coupled

namespace Matched

variable {R : Machine → Machine → Prop} {P : α → β → Prop} {Q : γ → δ → Prop}
  {x : Rendering α} {y : Rendering β}

theorem pure {a : γ} {b : δ} (h : Q a b) : Matched A R Q (pure a) (pure b) :=
  Coupled.pure fun _ _ hm => ⟨h, hm⟩

theorem bind {f : α → Rendering γ} {g : β → Rendering δ} (h : Matched A R P x y)
    (hf : ∀ a b, P a b → Matched A R Q (f a) (g b)) : Matched A R Q (x >>= f) (y >>= g) :=
  Coupled.bind h fun a b m m' ⟨hp, hm⟩ => hf a b hp m m' hm

theorem map {f : α → γ} {g : β → δ} (h : Matched A R P x y) (hf : ∀ a b, P a b → Q (f a) (g b)) :
    Matched A R Q (f <$> x) (g <$> y) := by
  rw [← bind_pure_comp, ← bind_pure_comp]
  exact h.bind fun a b hp => .pure (hf a b hp)

theorem mono {P' : α → β → Prop} (h : Matched A R P x y) (hp : ∀ a b, P a b → P' a b) :
    Matched A R P' x y :=
  fun m m' hm => (h m m' hm).mono fun a b _ _ h => ⟨hp a b h.1, h.2⟩

theorem modifyGet {f : Machine → γ × Machine} {g : Machine → δ × Machine}
    (hn : ∀ m, (g m).2.frames.size = m.frames.size)
    (h : ∀ m m', R m m' → Q (f m).1 (g m').1 ∧ R (f m).2 (g m').2) :
    Matched A R Q (modifyGet f : Rendering γ) (modifyGet g : Rendering δ) :=
  fun m m' hm => .done (h m m' hm) (hn m')

theorem modify {f g : Machine → Machine} (hn : ∀ m, (g m).frames.size = m.frames.size)
    (h : ∀ m m', R m m' → R (f m) (g m')) :
    Matched A R (fun _ _ => True) (modify f : Rendering Unit) (modify g : Rendering Unit) :=
  modifyGet hn fun m m' hm => ⟨trivial, h m m' hm⟩

/-- Reads something off the states. -/
theorem reads {f : Machine → γ} {g : Machine → δ} (h : ∀ m m', R m m' → Q (f m) (g m')) :
    Matched A R Q (f <$> (get : Rendering Machine)) (g <$> (get : Rendering Machine)) :=
  fun m m' hm => .done ⟨h m m' hm, hm⟩ rfl

end Matched

end Rendering

theorem rel_mono {R S : α → β → Prop} {o : Option α} {o' : Option β} (hR : ∀ a b, R a b → S a b)
    (h : Option.Rel R o o') : Option.Rel S o o' := by
  cases h with
  | some h => exact .some (hR _ _ h)
  | none => exact .none

namespace Attempt

open Rendering (Coupled)

/-- Two attempts that stay side by side and keep a relation of states. Both fail, or both give values,
which are related. -/
abbrev Matched (A : Accord) (R : Machine → Machine → Prop) (Q : α → β → Prop) (x : Attempt α)
    (y : Attempt β) : Prop :=
  Rendering.Matched A R (Option.Rel Q) x.run y.run

namespace Matched

variable {R : Machine → Machine → Prop} {P : α → β → Prop} {Q : γ → δ → Prop}

theorem pure {a : γ} {b : δ} (h : Q a b) : Matched A R Q (pure a) (pure b) :=
  Rendering.Matched.pure (.some h)

theorem failure : Matched A R Q (failure : Attempt γ) (failure : Attempt δ) :=
  Rendering.Matched.pure .none

theorem bind {x : Attempt α} {y : Attempt β} {f : α → Attempt γ} {g : β → Attempt δ}
    (h : Matched A R P x y) (hf : ∀ a b, P a b → Matched A R Q (f a) (g b)) :
    Matched A R Q (x >>= f) (y >>= g) :=
  Rendering.Matched.bind h fun
    | _, _, .some h => hf _ _ h
    | _, _, .none => Rendering.Matched.pure .none

theorem mono {P' : α → β → Prop} {x : Attempt α} {y : Attempt β} (h : Matched A R P x y)
    (hp : ∀ a b, P a b → P' a b) : Matched A R P' x y :=
  Rendering.Matched.mono h fun _ _ => rel_mono hp

theorem lift {x : Rendering γ} {y : Rendering δ} (h : Rendering.Matched A R Q x y) :
    Matched A R Q (liftM x) (liftM y) :=
  Rendering.Matched.bind h fun _ _ h => Rendering.Matched.pure (.some h)

end Matched

end Attempt

end Stencil
