import Stencil.Proofs.Link
import Stencil.Proofs.Termination
/-! Evaluating writes nothing. Only elements write. Instances that run while an expression is evaluated write
text that is kept aside. -/

namespace Stencil

open Rendering

variable {α β : Type}

namespace Rendering

/-- Whatever becomes of the instances that it runs, an action leaves the sink as it was. -/
def Aside (x : Rendering α) : Prop := ∀ run m a k, handle run x m = .done a k → k.sink = m.sink

namespace Aside

variable {x : Rendering α}

theorem pure (a : α) : Aside (pure a) := by
  rintro run m _ _ ⟨⟩
  rfl

theorem bind {f : α → Rendering β} (h : Aside x) (hf : ∀ a, Aside (f a)) : Aside (x >>= f) := by
  intro run m b k hd
  rw [handle_bind] at hd
  obtain ⟨a, j, hx, hd⟩ := Course.done_of_bind hd
  exact (hf a run j b k hd).trans (h run m a j hx)

theorem map {f : α → β} (h : Aside x) : Aside (f <$> x) := by
  rw [← bind_pure_comp]
  exact h.bind fun _ => .pure _

theorem modifyGet {f : Machine → α × Machine} (h : ∀ m, (f m).2.sink = m.sink) :
    Aside (modifyGet f : Rendering α) := by
  rintro run m _ _ ⟨⟩
  exact h m

theorem get : Aside (get : Rendering Machine) := modifyGet (f := fun m => (m, m)) fun _ => rfl

theorem changeFrames (f : Frames → Frames) : Aside (changeFrames f) := modifyGet fun _ => rfl

theorem inWorkspace (action : StateM Workspace α) : Aside (inWorkspace action) := modifyGet fun _ => rfl

theorem report (settings : Settings) (env : Env) (kind : Kind) (arguments causes : List String) :
    Aside (report settings env kind arguments causes) := modifyGet fun _ => rfl

theorem capture (x : Rendering Unit) : Aside (capture x) := by
  intro run m text k hd
  obtain ⟨_, _, -, hd⟩ := Course.done_of_bind ((Course.handle_bind run (x _) _).symm.trans hd)
  cases hd
  rfl

theorem mapM {f : α → Rendering β} (hf : ∀ a, Aside (f a)) (o : Option α) : Aside (o.mapM f) := by
  cases o with
  | none => exact .pure _
  | some a => exact (hf a).map

variable (settings : Settings) (env : Env)

theorem frames : Aside frames := get.map

theorem renderText (v : Value) : Aside (renderText settings env v) := by
  cases v with
  | text => exact .pure _
  | _ => exact .capture _

theorem renderEarly (v : Value) : Aside (renderEarly settings env v) :=
  frames.bind fun _ => (changeFrames _).bind fun _ => (renderText settings env v).bind fun _ =>
    (changeFrames _).bind fun _ => .pure _

theorem readAttribute (name : String) : Aside (readAttribute env name) := frames.map

theorem readProperty (target : Value) (name : String) : Aside (readProperty settings env target name) := by
  unfold Rendering.readProperty
  split
  · exact .pure _
  · exact (report _ _ _ _ _).bind fun _ => .pure _

theorem readPropertyAt (target key : Value) : Aside (readPropertyAt settings env target key) := by
  unfold Rendering.readPropertyAt
  split
  · exact readProperty _ _ _ _
  · exact (renderText _ _ _).bind fun _ => readProperty _ _ _ _

theorem applyBuiltin (function : Builtin) (v : Value) : Aside (applyBuiltin settings env function v) := by
  unfold Rendering.applyBuiltin
  split
  · exact (renderText _ _ _).bind fun _ => .pure _
  · exact .pure _

theorem bindNamed (template : String) (bound : Instance) (es : List (String × Value)) :
    Aside (bindNamed settings env template bound es) := by
  induction es generalizing bound with
  | nil => exact .pure _
  | cons e es ih =>
    rw [Rendering.bindNamed]
    split
    · exact ih _
    · exact (report _ _ _ _ _).bind fun _ => ih _

theorem bindElement (bound : Instance) (v : Value) (index : Nat) : Aside (bindElement settings env bound v index) := by
  unfold Rendering.bindElement
  split
  · exact (report _ _ _ _ _).bind fun _ => .pure _
  · exact .pure _

theorem mapElements (templates : List (Option Instance)) (index : Nat) (vs : List Value) :
    Aside (mapElements settings env templates index vs) := by
  induction vs generalizing index with
  | nil => exact .pure _
  | cons v vs ih =>
    rw [Rendering.mapElements]
    split
    · exact (ih _).bind fun _ => .pure _
    · refine .bind ?_ fun _ => (ih _).bind fun _ => .pure _
      unfold Rendering.mapElement
      split
      · exact bindElement _ _ _ _ _
      · exact .pure _

theorem mapValue (target : Value) (templates : List (Option Instance)) :
    Aside (mapValue settings env target templates) := by
  unfold Rendering.mapValue
  split
  · exact .pure _
  · exact (mapElements _ _ _ _ _).bind fun _ => .pure _

end Aside

end Rendering

namespace Attempt

/-- An attempt that leaves the sink as it was. -/
abbrev Aside (x : Attempt α) : Prop := Rendering.Aside x.run

namespace Aside

variable {x : Attempt α}

theorem pure (a : α) : Aside (pure a) := Rendering.Aside.pure _

theorem failure : Aside (failure : Attempt α) := Rendering.Aside.pure _

theorem bind {f : α → Attempt β} (h : Aside x) (hf : ∀ a, Aside (f a)) : Aside (x >>= f) :=
  Rendering.Aside.bind h fun
    | some a => hf a
    | none => Rendering.Aside.pure _

theorem lift {x : Rendering α} (h : Rendering.Aside x) : Aside (liftM x) :=
  Rendering.Aside.bind h fun _ => Rendering.Aside.pure _

variable (settings : Settings) (env : Env)

theorem bindArguments (template : String) (bound : Instance) (passed : Passed) :
    Aside (bindArguments settings env template bound passed) := by
  cases passed with
  | positional values =>
    rw [Rendering.bindArguments]
    dsimp only
    split
    · exact (lift (.report _ _ _ _ _)).bind fun _ => failure.bind fun _ => .pure _
    · exact .pure _
  | named values => exact lift (.bindNamed _ _ _ _ _)

theorem instantiate (callee : Callee) (passed : Passed) : Aside (instantiate settings env callee passed) := by
  refine (lift (.inWorkspace _)).bind fun r => ?_
  split
  · exact (lift (.report _ _ _ _ _)).bind fun _ => failure
  · exact (lift (.report _ _ _ _ _)).bind fun _ => failure
  · exact bindArguments _ _ _ _ _

theorem instantiateComputed (name : String) (passed : Passed) :
    Aside (instantiateComputed settings env name passed) := by
  unfold Rendering.instantiateComputed
  split
  · exact (lift (.report _ _ _ _ _)).bind fun _ => failure.bind fun _ => instantiate _ _ _ _
  · exact instantiate _ _ _ _

end Aside

end Attempt

/-! ## Expressions -/

section

variable {r : Reading} {settings : Settings} {env : Env} {o : Origin}

mutual

theorem Expr.eval_aside (before : Nat) : (e : Expr) → Attempt.Aside (e.eval r settings env o before)
  | .attribute _ _ => .lift (.readAttribute _ _)
  | .literal _ _ | .truth _ _ | .anonymous _ _ _ => .pure _
  | .list items _ => (Expr.evalAll_aside before items).bind fun _ => .pure _
  | .property target _ _ => (target.eval_aside before).bind fun _ => .lift (.readProperty _ _ _ _)
  | .propertyAt target key _ =>
      (target.eval_aside before).bind fun _ => (key.eval_aside _).bind fun _ => .lift (.readPropertyAt _ _ _ _)
  | .call _ arguments _ =>
      (arguments.eval_aside before).bind fun _ => (Attempt.Aside.instantiate _ _ _ _).bind fun _ => .pure _
  | .callComputed name arguments _ =>
      (name.eval_aside before).bind fun _ => (Attempt.Aside.lift (.renderEarly _ _ _)).bind fun _ =>
        (arguments.eval_aside _).bind fun _ => (Attempt.Aside.instantiateComputed _ _ _ _).bind fun _ => .pure _
  | .rendered value _ =>
      (value.eval_aside before).bind fun _ => (Attempt.Aside.lift (.renderEarly _ _ _)).bind fun _ => .pure _
  | .builtin _ argument _ => (argument.eval_aside before).bind fun _ => .lift (.applyBuiltin _ _ _ _)
  | .map target templates _ =>
      (target.eval_aside before).bind fun _ => (Expr.evalAll_aside _ templates).bind fun _ => .lift (.mapValue _ _ _ _)

theorem Expr.evalAll_aside (before : Nat) : (es : List Expr) →
    Attempt.Aside (Expr.evalAll r settings env o before es)
  | [] => .pure _
  | e :: rest => (e.eval_aside before).bind fun _ => (Expr.evalAll_aside _ rest).bind fun _ => .pure _

theorem Arguments.eval_aside (before : Nat) : (as : Arguments) → Attempt.Aside (as.eval r settings env o before)
  | .positional values => (Expr.evalAll_aside before values).bind fun _ => .pure _
  | .named values => (NamedArgument.evalAll_aside before values).bind fun _ => .pure _

theorem NamedArgument.evalAll_aside (before : Nat) : (as : List NamedArgument) →
    Attempt.Aside (NamedArgument.evalAll r settings env o before as)
  | [] => .pure _
  | ⟨_, value, _⟩ :: rest =>
      (value.eval_aside before).bind fun _ => (NamedArgument.evalAll_aside _ rest).bind fun _ => .pure _

end

end

end Stencil
