import Mathlib.Logic.Basic
import Stencil.Render.Course
/-! Courses form a monad, and running the instances that a course calls respects it. -/

namespace Stencil

namespace Course

variable {α β γ : Type}

theorem bind_done (c : Course α) : c.bind done = c := by
  induction c with
  | done a m => rfl
  | call env bound m rest ih => simp only [bind, ih]
  | fallback rest ih => simp only [bind, ih]

theorem bind_assoc (c : Course α) (f : α → Machine → Course β) (g : β → Machine → Course γ) :
    (c.bind f).bind g = c.bind fun a m => (f a m).bind g := by
  induction c with
  | done a m => rfl
  | call env bound m rest ih => simp only [bind, ih]
  | fallback rest ih => simp only [bind, ih]

theorem handle_bind (run : Env → Instance → Machine → Course Unit) (c : Course α)
    (f : α → Machine → Course β) :
    (c.bind f).handle run = (c.handle run).bind fun a m => (f a m).handle run := by
  induction c with
  | done a m => rfl
  | call env bound m rest ih => simp only [bind, handle, ih, bind_assoc]
  | fallback rest ih => simp only [bind, handle, ih]

end Course

namespace Rendering

variable {α β : Type}

theorem bind_apply (x : Rendering α) (f : α → Rendering β) (m : Machine) :
    (x >>= f) m = (x m).bind f := rfl

instance : LawfulMonad Rendering := LawfulMonad.mk' Rendering
  (fun x => funext fun m => Course.bind_done (x m))
  (fun _ _ => rfl)
  (fun x f g => funext fun m => Course.bind_assoc (x m) f g)

theorem handle_bind (run : Env → Instance → Rendering Unit) (x : Rendering α)
    (f : α → Rendering β) : handle run (x >>= f) = handle run x >>= fun a => handle run (f a) :=
  funext fun m => Course.handle_bind run (x m) f

/-- An action goes on from where the one in front of it is done. -/
theorem handle_bind_of_done {run : Env → Instance → Rendering Unit} {x : Rendering α} {f : α → Rendering β}
    {m k : Machine} {a : α} (h : handle run x m = .done a k) : handle run (x >>= f) m = handle run (f a) k := by
  rw [handle_bind, bind_apply, h]
  rfl

end Rendering

namespace Attempt

variable {α β : Type}

theorem run_lift_bind (x : Rendering α) (f : α → Attempt β) :
    ((liftM x : Attempt α) >>= f).run = x >>= fun a => (f a).run := by
  change ((x >>= fun a => pure (some a)) >>= _) = _
  rw [bind_assoc]
  rfl

end Attempt

end Stencil
