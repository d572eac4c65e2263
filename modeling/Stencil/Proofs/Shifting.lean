import Mathlib.Logic.Basic
import Stencil.Template.Tree
/-! Trees in another place. A tree that is read further on in a source is the same but for its regions, which all
start by as much later. -/

namespace Stencil

/-- The region that starts by `k` bytes later. -/
def Span.shift (k : Nat) (s : Span) : Span := ⟨s.offset + k, s.length⟩

mutual

/-- The tree whose regions all start by `k` bytes later. -/
def Expr.shift (k : Nat) : Expr → Expr
  | .attribute name s => .attribute name (s.shift k)
  | .literal text s => .literal text (s.shift k)
  | .truth b s => .truth b (s.shift k)
  | .list items s => .list (Expr.shiftAll k items) (s.shift k)
  | .property target name s => .property (target.shift k) name (s.shift k)
  | .propertyAt target key s => .propertyAt (target.shift k) (key.shift k) (s.shift k)
  | .call callee arguments s => .call callee (arguments.shift k) (s.shift k)
  | .callComputed name arguments s => .callComputed (name.shift k) (arguments.shift k) (s.shift k)
  | .rendered value s => .rendered (value.shift k) (s.shift k)
  | .builtin function argument s => .builtin function (argument.shift k) (s.shift k)
  | .anonymous parameter body s => .anonymous parameter (Element.shiftAll k body) (s.shift k)
  | .map target templates s => .map (target.shift k) (Expr.shiftAll k templates) (s.shift k)

def Expr.shiftAll (k : Nat) : List Expr → List Expr
  | [] => []
  | e :: rest => e.shift k :: Expr.shiftAll k rest

def Arguments.shift (k : Nat) : Arguments → Arguments
  | .positional values => .positional (Expr.shiftAll k values)
  | .named values => .named (NamedArgument.shiftAll k values)

def NamedArgument.shiftAll (k : Nat) : List NamedArgument → List NamedArgument
  | [] => []
  | ⟨name, value, s⟩ :: rest => ⟨name, value.shift k, s.shift k⟩ :: NamedArgument.shiftAll k rest

def TagOption.shiftAll (k : Nat) : List TagOption → List TagOption
  | [] => []
  | ⟨name, value, s⟩ :: rest => ⟨name, value.shift k, s.shift k⟩ :: TagOption.shiftAll k rest

def Condition.shift (k : Nat) : Condition → Condition
  | .value e => .value (e.shift k)
  | .not c => .not (c.shift k)
  | .and a b => .and (a.shift k) (b.shift k)
  | .or a b => .or (a.shift k) (b.shift k)

def Element.shift (k : Nat) : Element → Element
  | .text s => .text s
  | .tag value options s => .tag (value.shift k) (TagOption.shiftAll k options) (s.shift k)
  | .choice branches none => .choice (Branch.shiftAll k branches) none
  | .choice branches (some body) => .choice (Branch.shiftAll k branches) (some (Element.shiftAll k body))

def Element.shiftAll (k : Nat) : List Element → List Element
  | [] => []
  | e :: rest => e.shift k :: Element.shiftAll k rest

def Branch.shiftAll (k : Nat) : List Branch → List Branch
  | [] => []
  | ⟨condition, body, s⟩ :: rest =>
    ⟨condition.shift k, Element.shiftAll k body, s.shift k⟩ :: Branch.shiftAll k rest

end

/-- The branch whose regions all start by `k` bytes later. -/
def Branch.shift (k : Nat) (b : Branch) : Branch := ⟨b.condition.shift k, Element.shiftAll k b.body, b.span.shift k⟩

theorem Branch.shiftAll_cons (k : Nat) (b : Branch) (bs : List Branch) :
    Branch.shiftAll k (b :: bs) = b.shift k :: Branch.shiftAll k bs := by
  cases b
  rfl

theorem Element.shift_choice (k : Nat) (branches : List Branch) (otherwise : Option (List Element)) :
    (Element.choice branches otherwise).shift k =
      .choice (Branch.shiftAll k branches) (otherwise.map (Element.shiftAll k)) := by
  cases otherwise <;> rfl

mutual

theorem Expr.shift_zero : (e : Expr) → e.shift 0 = e
  | .attribute _ _ | .literal _ _ | .truth _ _ => rfl
  | .list items s => congrArg (Expr.list · s) (Expr.shiftAll_zero items)
  | .property target name s => congrArg (Expr.property · name s) target.shift_zero
  | .propertyAt target key s => congrArg₂ (Expr.propertyAt · · s) target.shift_zero key.shift_zero
  | .call callee arguments s => congrArg (Expr.call callee · s) arguments.shift_zero
  | .callComputed name arguments s => congrArg₂ (Expr.callComputed · · s) name.shift_zero arguments.shift_zero
  | .rendered value s => congrArg (Expr.rendered · s) value.shift_zero
  | .builtin function argument s => congrArg (Expr.builtin function · s) argument.shift_zero
  | .anonymous parameter body s => congrArg (Expr.anonymous parameter · s) (Element.shiftAll_zero body)
  | .map target templates s => congrArg₂ (Expr.map · · s) target.shift_zero (Expr.shiftAll_zero templates)

theorem Expr.shiftAll_zero : (es : List Expr) → Expr.shiftAll 0 es = es
  | [] => rfl
  | e :: rest => congrArg₂ List.cons e.shift_zero (Expr.shiftAll_zero rest)

theorem Arguments.shift_zero : (as : Arguments) → as.shift 0 = as
  | .positional values => congrArg Arguments.positional (Expr.shiftAll_zero values)
  | .named values => congrArg Arguments.named (NamedArgument.shiftAll_zero values)

theorem NamedArgument.shiftAll_zero : (as : List NamedArgument) → NamedArgument.shiftAll 0 as = as
  | [] => rfl
  | ⟨name, value, s⟩ :: rest =>
    congrArg₂ (fun v r => NamedArgument.mk name v s :: r) value.shift_zero (NamedArgument.shiftAll_zero rest)

theorem TagOption.shiftAll_zero : (os : List TagOption) → TagOption.shiftAll 0 os = os
  | [] => rfl
  | ⟨name, value, s⟩ :: rest =>
    congrArg₂ (fun v r => TagOption.mk name v s :: r) value.shift_zero (TagOption.shiftAll_zero rest)

theorem Condition.shift_zero : (c : Condition) → c.shift 0 = c
  | .value e => congrArg Condition.value e.shift_zero
  | .not c => congrArg Condition.not c.shift_zero
  | .and a b => congrArg₂ Condition.and a.shift_zero b.shift_zero
  | .or a b => congrArg₂ Condition.or a.shift_zero b.shift_zero

theorem Element.shift_zero : (e : Element) → e.shift 0 = e
  | .text _ => rfl
  | .tag value options s => congrArg₂ (Element.tag · · s) value.shift_zero (TagOption.shiftAll_zero options)
  | .choice branches none => congrArg (Element.choice · none) (Branch.shiftAll_zero branches)
  | .choice branches (some body) =>
    congrArg₂ (fun b o => Element.choice b (some o)) (Branch.shiftAll_zero branches) (Element.shiftAll_zero body)

theorem Element.shiftAll_zero : (es : List Element) → Element.shiftAll 0 es = es
  | [] => rfl
  | e :: rest => congrArg₂ List.cons e.shift_zero (Element.shiftAll_zero rest)

theorem Branch.shiftAll_zero : (bs : List Branch) → Branch.shiftAll 0 bs = bs
  | [] => rfl
  | ⟨condition, body, s⟩ :: rest => by
    rw [Branch.shiftAll, condition.shift_zero, Element.shiftAll_zero body, Branch.shiftAll_zero rest]
    rfl

end

/-- Joining texts does not touch regions. -/
theorem Element.shiftAll_joinTexts (k : Nat) (es : List Element) :
    Element.shiftAll k (joinTexts es) = joinTexts (Element.shiftAll k es) := by
  induction es with
  | nil => rfl
  | cons e rest ih =>
    cases e with
    | text s =>
      rw [shiftAll, shift, joinTexts, joinTexts, ← ih]
      rcases joinTexts rest with _ | ⟨_ | _ | ⟨_, _ | _⟩, more⟩
      · cases s.isEmpty <;> rfl
      · rfl
      · cases s.isEmpty <;> rfl
      · cases s.isEmpty <;> rfl
      · cases s.isEmpty <;> rfl
    | tag => exact congrArg (List.cons _) ih
    | choice _ otherwise => cases otherwise <;> exact congrArg (List.cons _) ih

end Stencil
