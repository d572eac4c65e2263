import Stencil.Proofs.Coupling
import Stencil.Proofs.Course
/-! What a render does by itself: which instances it calls, in which states, and what it ends with. -/

namespace Stencil

variable {α β : Type}

/-- Which instances are called, with what is known of the state in which they are and of the one that
they leave. -/
abbrev Permit := Env → Instance → (Machine → Prop) → Prop

/-- No calls at all. -/
def Permit.none : Permit := fun _ _ _ => False

variable {C D : Permit} {I : Machine → Prop}

/-- A course that calls only as a permit says, and ends with what `post` admits. -/
inductive Course.Within (C : Permit) (post : α → Machine → Prop) : Course α → Prop where
  | done {a m} (h : post a m) : Within C post (.done a m)
  | call {env bound kept m rest} (h : C env bound kept) (hm : kept m)
      (hrest : ∀ k, kept k → Within C post (rest k)) : Within C post (.call env bound m rest)
  | fallback {rest} (h : Within C post rest) : Within C post (.fallback rest)

namespace Course

theorem Within.bind {mid : α → Machine → Prop} {post : β → Machine → Prop} {c : Course α}
    {f : α → Machine → Course β} (h : c.Within C mid) (hf : ∀ a m, mid a m → (f a m).Within C post) :
    (c.bind f).Within C post := by
  induction h with
  | done h => exact hf _ _ h
  | call h hm _ ih => exact .call h hm ih
  | fallback _ ih => exact .fallback ih

theorem Within.mono {post post' : α → Machine → Prop} {c : Course α} (h : c.Within C post)
    (hp : ∀ a m, post a m → post' a m) : c.Within C post' := by
  induction h with
  | done h => exact .done (hp _ _ h)
  | call h hm _ ih => exact .call h hm ih
  | fallback _ ih => exact .fallback ih

theorem Within.permit {post : α → Machine → Prop} {c : Course α} (h : c.Within C post)
    (hC : ∀ env bound kept, C env bound kept → D env bound kept) : c.Within D post := by
  induction h with
  | done h => exact .done h
  | call h hm _ ih => exact .call (hC _ _ _ h) hm ih
  | fallback _ ih => exact .fallback ih

/-- A course that is similar to itself stays within what both sides share. -/
theorem Similar.within {A : Accord} {post : α → α → Machine → Machine → Prop} {post' : α → Machine → Prop}
    {n : Nat} {c c' : Course α} (h : c.Similar A post n c') (hc : c = c')
    (hA : ∀ env bound bound' kept, A env bound env bound' kept →
      ∃ kept', C env bound kept' ∧ ∀ m, kept m m ↔ kept' m)
    (hp : ∀ a m, post a a m m → post' a m) : c.Within C post' := by
  induction h with
  | done h =>
    cases hc
    exact .done (hp _ _ h)
  | call h hm _ _ ih =>
    cases hc
    obtain ⟨kept', hC, hk⟩ := hA _ _ _ _ h
    exact .call hC ((hk _).mp hm) fun k hkept => ih k k ((hk k).mpr hkept) rfl

end Course

namespace Rendering

/-- An action that stays within a permit and in states of `I`. -/
def Within (C : Permit) (I : Machine → Prop) (post : α → Prop) (x : Rendering α) : Prop :=
  ∀ m, I m → (x m).Within C fun a k => post a ∧ I k

/-- What is known of a value that nothing is known of. -/
abbrev anything : α → Prop := fun _ => True

namespace Within

variable {mid : α → Prop} {post : β → Prop} {x : Rendering α}

theorem pure {b : β} (h : post b) : Within C I post (pure b) := fun _ hm => .done ⟨h, hm⟩

theorem bind {f : α → Rendering β} (h : Within C I mid x) (hf : ∀ a, mid a → Within C I post (f a)) :
    Within C I post (x >>= f) := fun m hm => (h m hm).bind fun a m ⟨ha, hm⟩ => hf a ha m hm

theorem map {f : α → β} (h : Within C I mid x) (hf : ∀ a, mid a → post (f a)) :
    Within C I post (f <$> x) := by
  rw [← bind_pure_comp]
  exact h.bind fun a ha => .pure (hf a ha)

theorem mono {post' : α → Prop} (h : Within C I mid x) (hp : ∀ a, mid a → post' a) :
    Within C I post' x := fun m hm => (h m hm).mono fun a _ ⟨ha, hm⟩ => ⟨hp a ha, hm⟩

theorem modify {f : Machine → Machine} (h : ∀ m, I m → I (f m)) :
    Within C I anything (modify f : Rendering Unit) := fun m hm => .done ⟨trivial, h m hm⟩

theorem fallback : Within C I anything fallback := fun _ hm => .fallback (.done ⟨trivial, hm⟩)

end Within

end Rendering

namespace Attempt

/-- An attempt that stays within a permit. If it succeeds, `post` admits its value. -/
abbrev Within (C : Permit) (I : Machine → Prop) (post : α → Prop) (x : Attempt α) : Prop :=
  Rendering.Within C I (fun o => ∀ a ∈ o, post a) x.run

/-- An attempt that stays within a permit and succeeds, with a value that `post` admits. -/
abbrev Succeeds (C : Permit) (I : Machine → Prop) (post : α → Prop) (x : Attempt α) : Prop :=
  Rendering.Within C I (fun o => ∃ a, o = some a ∧ post a) x.run

variable {mid : α → Prop} {post : β → Prop}

namespace Within

theorem pure {b : β} (h : post b) : Within C I post (pure b) :=
  Rendering.Within.pure fun a ha => by cases ha; exact h

theorem failure : Within C I post (failure : Attempt β) := Rendering.Within.pure nofun

theorem bind {x : Attempt α} {f : α → Attempt β} (h : Within C I mid x)
    (hf : ∀ a, mid a → Within C I post (f a)) : Within C I post (x >>= f) :=
  Rendering.Within.bind h fun
    | none, _ => Rendering.Within.pure nofun
    | some a, ha => hf a (ha a rfl)

/-- After a failure nothing follows. -/
theorem abandoned {f : α → Attempt β} : Within C I post ((Alternative.failure : Attempt α) >>= f) :=
  have hnever : Within C I (fun _ => False) (Alternative.failure : Attempt α) := failure
  hnever.bind nofun

theorem map {x : Attempt α} {f : α → β} (h : Within C I mid x) (hf : ∀ a, mid a → post (f a)) :
    Within C I post (f <$> x) := by
  rw [← bind_pure_comp]
  exact h.bind fun a ha => .pure (hf a ha)

theorem lift {x : Rendering β} (h : Rendering.Within C I post x) : Within C I post (liftM x) :=
  Rendering.Within.bind h fun _ ha => Rendering.Within.pure fun _ hb => by cases hb; exact ha

end Within

namespace Succeeds

theorem within {x : Attempt α} (h : Succeeds C I mid x) : Within C I mid x :=
  Rendering.Within.mono h fun o ⟨a, ho, ha⟩ b hb => by
    cases ho
    cases hb
    exact ha

theorem pure {b : β} (h : post b) : Succeeds C I post (pure b) := Rendering.Within.pure ⟨b, rfl, h⟩

theorem bind {x : Attempt α} {f : α → Attempt β} (h : Succeeds C I mid x)
    (hf : ∀ a, mid a → Succeeds C I post (f a)) : Succeeds C I post (x >>= f) :=
  Rendering.Within.bind h fun
    | none, ha => by
        obtain ⟨_, ho, _⟩ := ha
        cases ho
    | some a, ha => by
        obtain ⟨_, ho, ha⟩ := ha
        cases ho
        exact hf a ha

theorem lift {x : Rendering β} (h : Rendering.Within C I post x) : Succeeds C I post (liftM x) :=
  Rendering.Within.bind h fun b hb => Rendering.Within.pure ⟨b, rfl, hb⟩

end Succeeds

end Attempt

end Stencil
