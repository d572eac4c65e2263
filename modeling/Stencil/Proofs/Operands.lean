import Mathlib.Data.List.Forall2
import Stencil.Proofs.Direct
import Stencil.Proofs.Flags
/-! Operands: the lines of code that evaluate what stands in parentheses, or the computed name of a template, and the one
behind them that renders its value. -/

namespace Stencil

/-! ## Trees

For each line of the code of a tree, whether it belongs to an operand. -/

mutual

/-- The expression itself may stand in an operand, and then all its lines belong to that. -/
def Expr.operands (inside : Bool) : Expr → List Bool
  | .attribute _ _ | .literal _ _ | .truth _ _ | .anonymous _ _ _ => [inside]
  | .list items _ => Expr.operandsAll inside items ++ [inside]
  | .property target _ _ => target.operands inside ++ [inside]
  | .propertyAt target key _ => target.operands inside ++ (key.operands inside ++ [inside])
  | .call _ arguments _ => arguments.operands inside ++ [inside]
  | .callComputed name arguments _ => name.operands true ++ (true :: (arguments.operands inside ++ [inside]))
  | .rendered value _ => value.operands true ++ [true]
  | .builtin _ argument _ => argument.operands inside ++ [inside]
  | .map target templates _ => target.operands inside ++ (Expr.operandsAll inside templates ++ [inside])

def Expr.operandsAll (inside : Bool) : List Expr → List Bool
  | [] => []
  | e :: rest => e.operands inside ++ Expr.operandsAll inside rest

def Arguments.operands (inside : Bool) : Arguments → List Bool
  | .positional values => Expr.operandsAll inside values
  | .named values => NamedArgument.operandsAll inside values

def NamedArgument.operandsAll (inside : Bool) : List NamedArgument → List Bool
  | [] => []
  | ⟨_, value, _⟩ :: rest => inside :: (value.operands inside ++ NamedArgument.operandsAll inside rest)

end

def TagOption.operands (wanted : String) : List TagOption → List Bool
  | [] => []
  | ⟨name, value, _⟩ :: rest => if name == wanted then value.operands false else TagOption.operands wanted rest

def Condition.operands : Condition → List Bool
  | .value e => e.operands false
  | .not c => c.operands ++ [false]
  | .and a b | .or a b => a.operands ++ (b.operands ++ [false])

mutual

def Element.operands : Element → List Bool
  | .text _ => [false]
  | .tag value options _ => value.operands false ++ (TagOption.operands "separator" options ++
      (TagOption.operands "format" options ++ (TagOption.operands "null" options ++ [false])))
  | .choice branches none => Branch.operandsAll branches
  | .choice branches (some body) => Branch.operandsAll branches ++ Element.operandsAll body

def Element.operandsAll : List Element → List Bool
  | [] => []
  | e :: rest => e.operands ++ Element.operandsAll rest

def Branch.operandsAll : List Branch → List Bool
  | [] => []
  | ⟨condition, body, _⟩ :: rest =>
    condition.operands ++ (false :: (Element.operandsAll body ++ [false])) ++ Branch.operandsAll rest

end

/-- The operands of defaults in turn, each between a jump and the line that stores it. -/
def defaultOperands : List (String × Expr) → List Bool
  | [] => []
  | (_, value) :: rest => false :: (value.operands false ++ [false]) ++ defaultOperands rest

def Template.operands (t : Template) : List Bool := defaultOperands t.defaults ++ Element.operandsAll t.body

/-- In code that is made from a template, the instruction at an address belongs to an operand. -/
def Program.InOperand (p : Program) (address : Nat) : Prop :=
  ∃ t : Template, t.code = p.toCode ∧ t.operands[address]? = some true

/-! ## Lines -/

/-- A line that renders a value in parentheses belongs to an operand, and one that writes does not. -/
def Line.Marked (l : Line String Code) (inside : Bool) : Prop :=
  (l.instr.renders = true → inside = true) ∧ (inside = true → ∀ set, l.instr ≠ .write set)

/-- Lines beside what is said of each of them. -/
abbrev Line.AllMarked : List (Line String Code) → List Bool → Prop := List.Forall₂ Line.Marked

namespace Line.AllMarked

variable {lines lines' : List (Line String Code)} {marks marks' : List Bool} {inside : Bool}

theorem append (h : AllMarked lines marks) (h' : AllMarked lines' marks') :
    AllMarked (lines ++ lines') (marks ++ marks') := List.rel_append h h'

/-- A line that neither renders nor writes, in front of others. -/
theorem plain {i : Instr String Code} {place : Option Span} (hr : i.renders = false) (hw : ∀ set, i ≠ .write set)
    (h : AllMarked lines marks) : AllMarked (⟨i, place⟩ :: lines) (inside :: marks) :=
  .cons ⟨fun hi => Bool.noConfusion (hr.symm.trans hi), fun _ => hw⟩ h

theorem last {i : Instr String Code} {place : Option Span} (hr : i.renders = false) (hw : ∀ set, i ≠ .write set) :
    AllMarked [⟨i, place⟩] [inside] := plain hr hw .nil

theorem render {place : Option Span} (h : AllMarked lines marks) :
    AllMarked (⟨.render, place⟩ :: lines) (true :: marks) := .cons ⟨fun _ => rfl, fun _ => nofun⟩ h

theorem write {set : OptionSet} {place : Option Span} : AllMarked [⟨.write set, place⟩] [false] :=
  .cons ⟨fun h => (nomatch h), fun h => (nomatch h)⟩ .nil

end Line.AllMarked

open Line (AllMarked)

variable {o : Origin}

mutual

theorem Expr.lower_marked (n : Nat) (inside : Bool) : (e : Expr) → AllMarked (e.lower o n) (e.operands inside)
  | .attribute _ _ | .literal _ _ | .truth _ _ | .anonymous _ _ _ => .last rfl nofun
  | .list items _ => .append (Expr.lowerAll_marked n inside items) (.last rfl nofun)
  | .property target _ _ => .append (target.lower_marked n inside) (.last rfl nofun)
  | .propertyAt target key _ =>
      .append (target.lower_marked n inside) (.append (key.lower_marked _ inside) (.last rfl nofun))
  | .call _ arguments _ => .append (arguments.lower_marked n inside) (.last rfl nofun)
  | .callComputed name arguments _ => .append (name.lower_marked n true)
      (.render (.append (arguments.lower_marked _ inside) (.last rfl nofun)))
  | .rendered value _ => .append (value.lower_marked n true) (.render .nil)
  | .builtin _ argument _ => .append (argument.lower_marked n inside) (.last rfl nofun)
  | .map target templates _ => .append (target.lower_marked n inside)
      (.append (Expr.lowerAll_marked _ inside templates) (.last rfl nofun))

theorem Expr.lowerAll_marked (n : Nat) (inside : Bool) : (es : List Expr) →
    AllMarked (Expr.lowerAll o n es) (Expr.operandsAll inside es)
  | [] => .nil
  | e :: rest => .append (e.lower_marked n inside) (Expr.lowerAll_marked _ inside rest)

theorem Arguments.lower_marked (n : Nat) (inside : Bool) : (as : Arguments) →
    AllMarked (as.lower o n) (as.operands inside)
  | .positional values => Expr.lowerAll_marked n inside values
  | .named values => NamedArgument.lowerAll_marked n inside values

theorem NamedArgument.lowerAll_marked (n : Nat) (inside : Bool) : (as : List NamedArgument) →
    AllMarked (NamedArgument.lowerAll o n as) (NamedArgument.operandsAll inside as)
  | [] => .nil
  | ⟨_, value, _⟩ :: rest =>
      .plain rfl nofun (.append (value.lower_marked n inside) (NamedArgument.lowerAll_marked _ inside rest))

end

theorem TagOption.lower_marked : (n : Nat) → (wanted : String) → (os : List TagOption) →
    AllMarked (TagOption.lower o n wanted os) (TagOption.operands wanted os)
  | _, _, [] => .nil
  | n, wanted, ⟨name, value, _⟩ :: rest => by
      rw [TagOption.lower, TagOption.operands]
      split
      · exact value.lower_marked n false
      · exact TagOption.lower_marked n wanted rest

theorem Condition.lower_marked : (n : Nat) → (c : Condition) → AllMarked (c.lower o n) c.operands
  | n, .value e => e.lower_marked n false
  | n, .not c => .append (c.lower_marked n) (.last rfl nofun)
  | n, .and a b | n, .or a b => .append (a.lower_marked n) (.append (b.lower_marked _) (.last rfl nofun))

mutual

theorem Element.lower_marked (n start : Nat) : (e : Element) → AllMarked (e.lower o n start) e.operands
  | .text _ => .last rfl nofun
  | .tag value options _ => .append (value.lower_marked n false) (.append (TagOption.lower_marked _ _ options)
      (.append (TagOption.lower_marked _ _ options) (.append (TagOption.lower_marked _ _ options) .write)))
  | .choice branches none => by
      rw [Element.operands, ← List.append_nil (Branch.operandsAll branches)]
      exact .append (Branch.lowerAll_marked n start _ branches) .nil
  | .choice branches (some body) =>
      .append (Branch.lowerAll_marked n start _ branches) (Element.lowerAll_marked _ _ body)

theorem Element.lowerAll_marked (n start : Nat) : (es : List Element) →
    AllMarked (Element.lowerAll o n start es) (Element.operandsAll es)
  | [] => .nil
  | e :: rest => .append (e.lower_marked n start) (Element.lowerAll_marked _ _ rest)

theorem Branch.lowerAll_marked (n start exit : Nat) : (bs : List Branch) →
    AllMarked (Branch.join exit (Branch.lowerAll o n start bs)) (Branch.operandsAll bs)
  | [] => .nil
  | ⟨condition, body, _⟩ :: rest => by
      rw [Branch.operandsAll, ← List.cons_append, ← List.append_assoc condition.operands]
      exact .append (.append (.append (condition.lower_marked n) (.plain rfl nofun (Element.lowerAll_marked _ _ body)))
        (.last rfl nofun)) (Branch.lowerAll_marked _ _ exit rest)

end

theorem lowerDefaults_marked (n start : Nat) : (ds : List (String × Expr)) →
    AllMarked (lowerDefaults o n start ds) (defaultOperands ds)
  | [] => .nil
  | (_, value) :: rest => .append (.plain rfl nofun (.append (value.lower_marked n false) (.last rfl nofun)))
      (lowerDefaults_marked _ _ rest)

theorem Template.lines_marked (t : Template) : AllMarked t.lines t.operands :=
  .append (lowerDefaults_marked _ _ t.defaults) (Element.lowerAll_marked _ _ t.body)

/-! ## Programs -/

theorem Instr.renders_convert {τ ι τ' ι' : Type} (f : τ → τ') (g : ι → ι') (i : Instr τ ι) :
    (i.convert f g).renders = i.renders := by cases i <;> rfl

theorem Instr.eq_write_of_convert {τ ι τ' ι' : Type} {f : τ → τ'} {g : ι → ι'} {i : Instr τ ι} {set : OptionSet}
    (h : i.convert f g = .write set) : i = .write set := by
  cases i with
  | write => cases h; rfl
  | _ => cases h

namespace Program

variable {p : Program} {address : Nat} {line : Line Nat Nat}

/-- What renders a value in parentheses belongs to an operand. -/
theorem inOperand_of_renders (hl : p.lines[address]? = some line) (hr : line.instr.renders = true) :
    p.InOperand address := by
  obtain ⟨t, -, hcode⟩ := p.lowered
  rw [← hcode] at hl
  obtain ⟨l, hline, rfl⟩ := t.line_of_code hl
  obtain ⟨hlen, hmarks⟩ := List.forall₂_iff_get.mp t.lines_marked
  obtain ⟨ha, rfl⟩ := List.getElem?_eq_some_iff.mp hline
  rw [Instr.renders_convert] at hr
  refine ⟨t, hcode, List.getElem?_eq_some_iff.mpr ⟨hlen ▸ ha, ?_⟩⟩
  exact (hmarks address ha (hlen ▸ ha)).1 hr

/-- Nothing is written in an operand. -/
theorem InOperand.not_write (h : p.InOperand address) (hl : p.lines[address]? = some line) (set : OptionSet) :
    line.instr ≠ .write set := by
  obtain ⟨t, hcode, hmark⟩ := h
  rw [← hcode] at hl
  obtain ⟨l, hline, rfl⟩ := t.line_of_code hl
  obtain ⟨-, hmarks⟩ := List.forall₂_iff_get.mp t.lines_marked
  obtain ⟨ha, rfl⟩ := List.getElem?_eq_some_iff.mp hline
  obtain ⟨hb, hmark⟩ := List.getElem?_eq_some_iff.mp hmark
  exact fun hw => (hmarks address ha hb).2 hmark set (Instr.eq_write_of_convert hw)

end Program

end Stencil
