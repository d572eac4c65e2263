import Stencil.Template.Cursor
import Stencil.Template.Tree
/-! Trees that the reader may give: each region lies in the source, only templates are mapped, and what is
referred to by name has the name of something. -/

namespace Stencil

/-- A region of whole characters of a source. -/
def Span.Within (source : String) (s : Span) : Prop :=
  ∃ before inside after, source.toList = before ++ (inside ++ after) ∧
    s.offset = Text.byteLength before ∧ s.length = Text.byteLength inside

/-- Expressions that stand for a template to run. -/
def Expr.IsTemplate : Expr → Prop
  | .call _ _ _ | .callComputed _ _ _ | .anonymous _ _ _ => True
  | _ => False

mutual

/-- The regions of a tree are as `P` says, only templates are mapped, and names are names. -/
def Expr.Proper (P : Span → Prop) : Expr → Prop
  | .attribute name s => P s ∧ isName name = true
  | .literal _ s | .truth _ s => P s
  | .list items s => Expr.ProperAll P items ∧ P s
  | .property target _ s => target.Proper P ∧ P s
  | .propertyAt target key s => target.Proper P ∧ key.Proper P ∧ P s
  | .call callee arguments s => arguments.Proper P ∧ P s ∧ isName callee.name = true
  | .callComputed name arguments s => name.Proper P ∧ arguments.Proper P ∧ P s
  | .rendered value s => value.Proper P ∧ P s
  | .builtin _ argument s => argument.Proper P ∧ P s
  | .anonymous _ body s => Element.ProperAll P body ∧ P s
  | .map target templates s =>
    target.Proper P ∧ Expr.ProperAll P templates ∧ (∀ e ∈ templates, e.IsTemplate) ∧ P s

def Expr.ProperAll (P : Span → Prop) : List Expr → Prop
  | [] => True
  | e :: rest => e.Proper P ∧ Expr.ProperAll P rest

def Arguments.Proper (P : Span → Prop) : Arguments → Prop
  | .positional values => Expr.ProperAll P values
  | .named values => NamedArgument.ProperAll P values

def NamedArgument.ProperAll (P : Span → Prop) : List NamedArgument → Prop
  | [] => True
  | ⟨name, value, s⟩ :: rest => value.Proper P ∧ P s ∧ NamedArgument.ProperAll P rest ∧ isName name = true

def TagOption.ProperAll (P : Span → Prop) : List TagOption → Prop
  | [] => True
  | ⟨name, value, s⟩ :: rest => value.Proper P ∧ P s ∧ TagOption.ProperAll P rest ∧ isName name = true

def Condition.Proper (P : Span → Prop) : Condition → Prop
  | .value e => e.Proper P
  | .not c => c.Proper P
  | .and a b | .or a b => a.Proper P ∧ b.Proper P

def Element.Proper (P : Span → Prop) : Element → Prop
  | .text _ => True
  | .tag value options s => value.Proper P ∧ TagOption.ProperAll P options ∧ P s
  | .choice branches otherwise =>
    Branch.ProperAll P branches ∧
      match otherwise with
      | none => True
      | some body => Element.ProperAll P body

def Element.ProperAll (P : Span → Prop) : List Element → Prop
  | [] => True
  | e :: rest => e.Proper P ∧ Element.ProperAll P rest

def Branch.ProperAll (P : Span → Prop) : List Branch → Prop
  | [] => True
  | ⟨condition, body, s⟩ :: rest =>
    condition.Proper P ∧ Element.ProperAll P body ∧ P s ∧ Branch.ProperAll P rest

end

variable {P : Span → Prop}

theorem Expr.Proper.span : {e : Expr} → e.Proper P → P e.span
  | .attribute _ _, h => h.1
  | .literal _ _, h => h
  | .truth _ _, h => h
  | .list _ _, h => h.2
  | .property _ _ _, h => h.2
  | .propertyAt _ _ _, h => h.2.2
  | .call _ _ _, h => h.2.1
  | .callComputed _ _ _, h => h.2.2
  | .rendered _ _, h => h.2
  | .builtin _ _ _, h => h.2
  | .anonymous _ _ _, h => h.2
  | .map _ _ _, h => h.2.2.2

theorem Branch.ProperAll.cons {b : Branch} {rest : List Branch}
    (hb : b.condition.Proper P ∧ Element.ProperAll P b.body ∧ P b.span)
    (h : Branch.ProperAll P rest) : Branch.ProperAll P (b :: rest) :=
  match b, hb with
  | ⟨_, _, _⟩, hb => ⟨hb.1, hb.2.1, hb.2.2, h⟩

theorem Element.Proper.choice {branches : List Branch} (hb : Branch.ProperAll P branches) :
    {otherwise : Option (List Element)} → (∀ b ∈ otherwise, Element.ProperAll P b) →
    (Element.choice branches otherwise).Proper P
  | none, _ => ⟨hb, trivial⟩
  | some _, h => ⟨hb, h _ rfl⟩

/-- Joining texts keeps trees proper. -/
theorem Element.ProperAll.joinTexts {es : List Element} (h : Element.ProperAll P es) :
    Element.ProperAll P (Element.joinTexts es) := by
  fun_induction Element.joinTexts es with
  | case1 => trivial
  | case2 s rest t more he ih =>
    have ht := ih h.2
    rw [he] at ht
    exact ⟨trivial, ht.2⟩
  | case3 s rest _ _ ih => exact ih h.2
  | case4 s rest _ _ ih => exact ⟨trivial, ih h.2⟩
  | case5 e rest _ ih => exact ⟨h.1, ih h.2⟩

end Stencil
