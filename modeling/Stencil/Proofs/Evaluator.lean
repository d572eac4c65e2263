import Mathlib.Tactic.Choose
import Stencil.Proofs.Course
import Stencil.Render.Run
/-! Templates run on their trees. Evaluation follows the syntax: it has no instructions, no operand stack
and no addresses. -/

namespace Stencil

open Rendering

/-- How programs correspond to the trees that they are made from, which may depend on the group that
defines them. A program that comes from source has the tree that is read there. -/
structure Reading where
  program : Template → Program
  template : Group → Program → Template
  program_code : ∀ t : Template, t.Proper → (program t).toCode = t.code
  template_code : ∀ g p, (template g p).code = p.toCode
  template_proper : ∀ g p, (template g p).Proper
  template_read : ∀ g (p : Program) (t : Template),
    Template.read p.name p.formals p.source = .ok t → t.code = p.toCode → template g p = t

/-- A tree that a program may be made from. That of a template with a name is read from source. -/
structure Template.Gives (t : Template) (p : Program) : Prop where
  proper : t.Proper
  code : t.code = p.toCode
  read : t.anonymous = false → Template.read p.name p.formals p.source = .ok t

/-- There is such a correspondence, as all programs are made from trees, and one that prefers some
trees to others. -/
theorem Reading.preferring (Q : Group → Template → Prop) : ∃ r : Reading, ∀ g p t,
    t.Gives p → Q g t → Q g (r.template g p) := by
  classical
  have hprogram (t : Template) : ∃ p : Program, t.Proper → p.toCode = t.code := by
    by_cases ht : t.Proper
    · exact ⟨.ofTemplate t ht, fun _ => rfl⟩
    · have hempty : (⟨"", .any, ⟨"", false⟩, [], [], false, 0⟩ : Template).Proper :=
        ⟨nofun, Span.Within "", fun _ hs _ hp => by cases hp; exact hs, trivial⟩
      exact ⟨.ofTemplate _ hempty, fun h => absurd h ht⟩
  have htemplate (g : Group) (p : Program) : ∃ t : Template, (t.code = p.toCode ∧ t.Proper ∧
      ∀ t', Template.read p.name p.formals p.source = .ok t' → t'.code = p.toCode → t = t') ∧
      ∀ t', t'.Gives p → Q g t' → Q g t := by
    by_cases h : ∃ t, Template.read p.name p.formals p.source = .ok t ∧ t.code = p.toCode
    · obtain ⟨t, hr, hc⟩ := h
      refine ⟨t, ⟨hc, .ofRead hr, fun t' hr' _ => Except.ok.inj (hr.symm.trans hr')⟩, fun t' ht' hq => ?_⟩
      have ha : t'.anonymous = t.anonymous := congrArg Code.anonymous (ht'.code.trans hc.symm)
      cases hr.symm.trans (ht'.read (ha.trans (Template.anonymous_of_read hr)))
      exact hq
    · have hread (t t' : Template) (hr : Template.read p.name p.formals p.source = .ok t')
          (hc : t'.code = p.toCode) : t = t' := absurd ⟨t', hr, hc⟩ h
      by_cases hq : ∃ t, t.Gives p ∧ Q g t
      · obtain ⟨t, ht, hq⟩ := hq
        exact ⟨t, ⟨ht.code, ht.proper, hread t⟩, fun _ _ _ => hq⟩
      · obtain ⟨t, ht, hc⟩ := p.lowered
        exact ⟨t, ⟨hc, ht, hread t⟩, fun t' ht' hq' => absurd ⟨t', ht', hq'⟩ hq⟩
  choose program hprogram using hprogram
  choose template htemplate using htemplate
  exact ⟨⟨program, template, hprogram, fun g p => (htemplate g p).1.1,
    fun g p => (htemplate g p).1.2.1, fun g p => (htemplate g p).1.2.2⟩, fun g p => (htemplate g p).2⟩

theorem Reading.nonempty : Nonempty Reading :=
  let ⟨r, _⟩ := Reading.preferring fun _ _ => True
  ⟨r⟩

variable (r : Reading) (settings : Settings) (env : Env) (o : Origin)

mutual

/-- The value of an expression, where `before` templates without a name have started before it. -/
def Expr.eval (before : Nat) : Expr → Attempt Value
  | .attribute name _ => readAttribute env name
  | .literal text _ => return .text text
  | .truth b _ => return .bool b
  | .list items _ => return .list (← Expr.evalAll before items)
  | .property target name s => do
    let v ← target.eval before
    readProperty settings (env.atPlace (o.place s)) v name
  | .propertyAt target key s => do
    let v ← target.eval before
    let k ← key.eval (before + target.started)
    readPropertyAt settings (env.atPlace (o.place s)) v k
  | .call callee arguments s => do
    let passed ← arguments.eval before
    return .template (← instantiate settings (env.atPlace (o.place s)) callee passed)
  | .callComputed name arguments s => do
    let v ← name.eval before
    let text ← renderEarly settings (env.atPlace (o.place name.span)) v
    let passed ← arguments.eval (before + name.started)
    return .template (← instantiateComputed settings (env.atPlace (o.place s)) text passed)
  | .rendered value s => do
    let v ← value.eval before
    return .text (← renderEarly settings (env.atPlace (o.place s)) v)
  | .builtin function argument s => do
    let v ← argument.eval before
    applyBuiltin settings (env.atPlace (o.place s)) function v
  | .anonymous parameter body _ =>
    return .template (enclosed settings env (r.program (.ofAnonymous o before parameter body)))
  | .map target templates s => do
    let v ← target.eval before
    let ts ← Expr.evalAll (before + target.started) templates
    mapValue settings (env.atPlace (o.place s)) v (ts.map Value.template?)

/-- The values of expressions, from left to right. -/
def Expr.evalAll (before : Nat) : List Expr → Attempt (List Value)
  | [] => return []
  | e :: rest => do
    let v ← e.eval before
    return v :: (← Expr.evalAll (before + e.started) rest)

def Arguments.eval (before : Nat) : Arguments → Attempt Passed
  | .positional values => return .positional (← Expr.evalAll before values)
  | .named values => return .named (← NamedArgument.evalAll before values)

def NamedArgument.evalAll (before : Nat) : List NamedArgument → Attempt (List (String × Value))
  | [] => return []
  | ⟨name, value, _⟩ :: rest => do
    let v ← value.eval before
    return (name, v) :: (← NamedArgument.evalAll (before + value.started) rest)

/-- The value of the first option of a name, if there is one. -/
def TagOption.eval (before : Nat) (wanted : String) : List TagOption → Attempt (Option Value)
  | [] => return none
  | ⟨name, value, _⟩ :: rest => do
    if name == wanted then return some (← value.eval before) else TagOption.eval before wanted rest

/-- Whether a condition holds. Both sides of an operator are evaluated. -/
def Condition.eval (before : Nat) : Condition → Attempt Bool
  | .value e => return (← e.eval before).isTruthy
  | .not c => return !(← c.eval before)
  | .and a b => do
    let left ← a.eval before
    let right ← b.eval (before + a.started)
    return left && right
  | .or a b => do
    let left ← a.eval before
    let right ← b.eval (before + a.started)
    return left || right

def Element.eval (before : Nat) : Element → Attempt Unit
  | .text s => writeText settings (env.atPlace o.unplaced) s
  | .tag value options s => do
    let separators := before + value.started
    let formats := separators + TagOption.started "separator" options
    let nulls := formats + TagOption.started "format" options
    let v ← value.eval before
    let separator ← TagOption.eval separators "separator" options
    let format ← TagOption.eval formats "format" options
    let null ← TagOption.eval nulls "null" options
    let here := env.atPlace (o.place s)
    writeExpression settings here (← renderOptions settings here separator format null) v
  | .choice branches none => Branch.evalFirst before (return ()) branches
  | .choice branches (some body) =>
    Branch.evalFirst before (Element.evalAll (before + Branch.startedAll branches) body) branches

def Element.evalAll (before : Nat) : List Element → Attempt Unit
  | [] => return ()
  | e :: rest => do
    e.eval before
    Element.evalAll (before + e.started) rest

/-- Evaluates the body of the first branch whose condition holds, or else something else. -/
def Branch.evalFirst (before : Nat) (otherwise : Attempt Unit) : List Branch → Attempt Unit
  | [] => otherwise
  | ⟨condition, body, _⟩ :: rest => do
    if ← condition.eval before then Element.evalAll (before + condition.started) body
    else Branch.evalFirst (before + condition.started + Element.startedAll body) otherwise rest

end

/-- Stores the default of a parameter that was not passed. -/
def evalDefault (before : Nat) (name : String) (value : Expr) : Attempt Unit := do
  unless isPassed env name do
    storeDefault env name (← value.eval r settings env o before)

/-- Stores defaults in turn. -/
def evalDefaults (before : Nat) : List (String × Expr) → Attempt Unit
  | [] => return ()
  | (name, value) :: rest => do
    evalDefault r settings env o before name value
    evalDefaults (before + value.started) rest

/-- Runs a template: its defaults in the order of the parameters, then its body. -/
def Template.eval (t : Template) : Attempt Unit := do
  evalDefaults r settings env { t.origin with inDefault := true } t.before t.defaults
  Element.evalAll r settings env t.origin t.beforeBody t.body

namespace Rendering

/-- Evaluates the tree of the instance that runs. -/
def runTree (r : Reading) (settings : Settings) (env : Env) : Rendering Unit := do
  let _ ← ((r.template env.here.bound.native env.program).eval r settings env).run

/-- Runs an instance on the tree of its program. -/
def evaluate (r : Reading) (settings : Settings) : Nat → Option Env → Instance → Rendering Unit :=
  nest settings (runTree r settings)

end Rendering

end Stencil
