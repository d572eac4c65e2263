import Stencil.Program.Basic
import Stencil.Template.Proper
/-! Lowers syntax trees to code. Templates without a name are numbered in the order in which they
start, and all branches go forward. -/

namespace Stencil

/-- Where the code of a template comes from. Defaults are written outside the source, so their code
stands for no region of it. -/
structure Origin where
  source : String
  inDefault : Bool

namespace Origin

/-- The region of source that an instruction stands for. -/
def place (o : Origin) (span : Span) : Option Span := if o.inDefault then none else some span

/-- The place of an instruction that stands for no region: the end of the source. -/
def unplaced (o : Origin) : Option Span := o.place ⟨o.source.utf8ByteSize, 0⟩

end Origin

/-! ## Texts and inner templates are held apart from the lines -/

namespace Line

/-- Holds texts by their places in a list, and inner templates by their number, from `inner` on. -/
def pool (constants : List String) : Nat → List (Line String Code) → List (Line Nat Nat)
  | _, [] => []
  | inner, l :: rest =>
    ⟨l.instr.convert constants.idxOf fun _ => inner, l.span⟩ ::
      pool constants (inner + l.instr.inner?.toList.length) rest

end Line

namespace Code

/-- Code of which the lines still hold their texts and inner templates. Each text is kept once. -/
def assemble (name : String) (formals : Formals) (source : String) (anonymous : Bool)
    (lines : List (Line String Code)) : Code :=
  let constants := (lines.filterMap fun l => l.instr.constant?).eraseDups
  { name, formals, source, anonymous, constants
    lines := Line.pool constants 0 lines
    inner := lines.filterMap fun l => l.instr.inner? }

/-- The name of a template without a name. -/
def anonymousName (number : Nat) : String := "_sub" ++ toString number

/-- The parameters of a template without a name, which may leave its one parameter out. -/
def anonymousFormals (parameter : Option String) : Formals :=
  .ofNames [parameter.getD Formals.element]

end Code

namespace Arguments

/-- How the arguments lie on the stack. -/
def passing : Arguments → Passing
  | .positional values => .positional values.length
  | .named values => .named values.length

end Arguments

namespace Branch

/-- The code of branches in turn, each with a jump to the end of the conditional. -/
def join (exit : Nat) (arms : List (List (Line String Code) × Option Span)) : List (Line String Code) :=
  arms.flatMap fun (code, place) => code ++ [⟨.jump exit, place⟩]

end Branch

namespace TagOption

/-- The options that are among the names given. -/
def present (options : List TagOption) : OptionSet :=
  let has (name : String) := options.any fun o => o.name == name
  ⟨has "separator", has "format", has "null"⟩

end TagOption

/-! ## How many templates without a name start in a tree -/

mutual

def Expr.started : Expr → Nat
  | .attribute _ _ | .literal _ _ | .truth _ _ => 0
  | .list items _ => Expr.startedAll items
  | .property target _ _ => target.started
  | .propertyAt target key _ => target.started + key.started
  | .call _ arguments _ => arguments.started
  | .callComputed name arguments _ => name.started + arguments.started
  | .rendered value _ => value.started
  | .builtin _ argument _ => argument.started
  | .anonymous _ body _ => Element.startedAll body + 1
  | .map target templates _ => target.started + Expr.startedAll templates

def Expr.startedAll : List Expr → Nat
  | [] => 0
  | e :: rest => e.started + Expr.startedAll rest

def Arguments.started : Arguments → Nat
  | .positional values => Expr.startedAll values
  | .named values => NamedArgument.startedAll values

def NamedArgument.startedAll : List NamedArgument → Nat
  | [] => 0
  | ⟨_, value, _⟩ :: rest => value.started + NamedArgument.startedAll rest

def TagOption.started (wanted : String) : List TagOption → Nat
  | [] => 0
  | ⟨name, value, _⟩ :: rest => if name == wanted then value.started else TagOption.started wanted rest

def Condition.started : Condition → Nat
  | .value e => e.started
  | .not c => c.started
  | .and a b | .or a b => a.started + b.started

def Element.started : Element → Nat
  | .text _ => 0
  | .tag value options _ =>
    value.started + TagOption.started "separator" options + TagOption.started "format" options +
      TagOption.started "null" options
  | .choice branches otherwise =>
    Branch.startedAll branches +
      match otherwise with
      | none => 0
      | some body => Element.startedAll body

def Element.startedAll : List Element → Nat
  | [] => 0
  | e :: rest => e.started + Element.startedAll rest

def Branch.startedAll : List Branch → Nat
  | [] => 0
  | ⟨condition, body, _⟩ :: rest =>
    condition.started + Element.startedAll body + Branch.startedAll rest

end

/-! ## The code of trees

Each function takes how many templates without a name have started before. -/

mutual

/-- Code that puts the value of an expression on the stack. -/
def Expr.lower (o : Origin) (before : Nat) : Expr → List (Line String Code)
  | .attribute name s => [⟨.pushAttribute name, o.place s⟩]
  | .literal text s => [⟨.pushText text, o.place s⟩]
  | .truth b s => [⟨.pushTruth b, o.place s⟩]
  | .list items s => Expr.lowerAll o before items ++ [⟨.list items.length, o.place s⟩]
  | .property target name s => target.lower o before ++ [⟨.property name, o.place s⟩]
  | .propertyAt target key s =>
    target.lower o before ++ (key.lower o (before + target.started) ++ [⟨.propertyAt, o.place s⟩])
  | .call callee arguments s =>
    arguments.lower o before ++ [⟨.create callee.name callee.inherited arguments.passing, o.place s⟩]
  | .callComputed name arguments s =>
    name.lower o before ++ (⟨.render, o.place name.span⟩ ::
      (arguments.lower o (before + name.started) ++ [⟨.createComputed arguments.passing, o.place s⟩]))
  | .rendered value s => value.lower o before ++ [⟨.render, o.place s⟩]
  | .builtin function argument s => argument.lower o before ++ [⟨.builtin function, o.place s⟩]
  | .anonymous parameter body s =>
    let inner := Code.assemble (Code.anonymousName (before + 1)) (Code.anonymousFormals parameter)
      o.source true (Element.lowerAll o (before + 1) 0 body)
    [⟨.createAnonymous inner, o.place s⟩]
  | .map target templates s =>
    target.lower o before ++ (Expr.lowerAll o (before + target.started) templates ++
      [⟨.map templates.length, o.place s⟩])

/-- Code that puts the values of expressions on the stack, the first deepest. -/
def Expr.lowerAll (o : Origin) (before : Nat) : List Expr → List (Line String Code)
  | [] => []
  | e :: rest => e.lower o before ++ Expr.lowerAll o (before + e.started) rest

def Arguments.lower (o : Origin) (before : Nat) : Arguments → List (Line String Code)
  | .positional values => Expr.lowerAll o before values
  | .named values => NamedArgument.lowerAll o before values

/-- Code that puts names and values on the stack. -/
def NamedArgument.lowerAll (o : Origin) (before : Nat) : List NamedArgument → List (Line String Code)
  | [] => []
  | ⟨name, value, s⟩ :: rest =>
    ⟨.pushText name, o.place s⟩ :: (value.lower o before ++
      NamedArgument.lowerAll o (before + value.started) rest)

/-- Code that puts the value of the first option of a name on the stack, if there is one. -/
def TagOption.lower (o : Origin) (before : Nat) (wanted : String) :
    List TagOption → List (Line String Code)
  | [] => []
  | ⟨name, value, _⟩ :: rest =>
    if name == wanted then value.lower o before else TagOption.lower o before wanted rest

/-- Code that puts the truth of a condition on the stack. Both sides of an operator are evaluated. -/
def Condition.lower (o : Origin) (before : Nat) : Condition → List (Line String Code)
  | .value e => e.lower o before
  | .not c => c.lower o before ++ [⟨.not, o.unplaced⟩]
  | .and a b => a.lower o before ++ (b.lower o (before + a.started) ++ [⟨.and, o.unplaced⟩])
  | .or a b => a.lower o before ++ (b.lower o (before + a.started) ++ [⟨.or, o.unplaced⟩])

/-- Code at an address that writes an element. -/
def Element.lower (o : Origin) (before start : Nat) : Element → List (Line String Code)
  | .text s => [⟨.text s, o.unplaced⟩]
  | .tag value options s =>
    let separators := before + value.started
    let formats := separators + TagOption.started "separator" options
    let nulls := formats + TagOption.started "format" options
    value.lower o before ++ (TagOption.lower o separators "separator" options ++
      (TagOption.lower o formats "format" options ++ (TagOption.lower o nulls "null" options ++
        [⟨.write (TagOption.present options), o.place s⟩])))
  | .choice branches otherwise =>
    let arms := Branch.lowerAll o before start branches
    let last := start + (arms.map fun arm => arm.1.length + 1).foldr (· + ·) 0
    let rest := match otherwise with
      | none => []
      | some body => Element.lowerAll o (before + Branch.startedAll branches) last body
    Branch.join (last + rest.length) arms ++ rest

/-- Code at an address that writes elements in turn. -/
def Element.lowerAll (o : Origin) (before start : Nat) : List Element → List (Line String Code)
  | [] => []
  | e :: rest =>
    let first := e.lower o before start
    first ++ Element.lowerAll o (before + e.started) (start + first.length) rest

/-- The code of each branch without the jump at its end: the test, a jump over the body and behind
the jump at its end, and the body. -/
def Branch.lowerAll (o : Origin) (before start : Nat) :
    List Branch → List (List (Line String Code) × Option Span)
  | [] => []
  | ⟨condition, body, s⟩ :: rest =>
    let test := condition.lower o before
    let inside := start + test.length + 1
    let code := Element.lowerAll o (before + condition.started) inside body
    let next := inside + code.length + 1
    (test ++ ⟨.jumpUnless next, o.place s⟩ :: code, o.place s) ::
      Branch.lowerAll o (before + condition.started + Element.startedAll body) next rest

end

/-- Code at an address that stores the default of a parameter unless a value was passed. -/
def lowerDefault (o : Origin) (before start : Nat) (name : String) (value : Expr) :
    List (Line String Code) :=
  let code := value.lower o before
  ⟨.jumpIfSet name (start + code.length + 2), o.place value.span⟩ ::
    (code ++ [⟨.storeDefault name, o.place value.span⟩])

/-- Code at an address that stores defaults in turn. -/
def lowerDefaults (o : Origin) (before start : Nat) : List (String × Expr) → List (Line String Code)
  | [] => []
  | (name, value) :: rest =>
    let first := lowerDefault o before start name value
    first ++ lowerDefaults o (before + value.started) (start + first.length) rest

/-- A template as a tree. A template without a name has no defaults, and its origin may be a default
of the template around it. -/
structure Template where
  name : String
  formals : Formals
  origin : Origin
  defaults : List (String × Expr)
  body : List Element
  anonymous : Bool
  /-- How many templates without a name have started before. -/
  before : Nat

namespace Template

/-- A template without a name that starts behind `before` others. -/
def ofAnonymous (origin : Origin) (before : Nat) (parameter : Option String) (body : List Element) :
    Template :=
  { name := Code.anonymousName (before + 1)
    formals := Code.anonymousFormals parameter
    origin, body
    defaults := []
    anonymous := true
    before := before + 1 }

/-- How many templates without a name have started before the body. -/
def beforeBody (t : Template) : Nat := t.before + (t.defaults.map fun d => d.2.started).foldr (· + ·) 0

/-- The code of the defaults in the order of the parameters, then that of the body. -/
def lines (t : Template) : List (Line String Code) :=
  let first := lowerDefaults { t.origin with inDefault := true } t.before 0 t.defaults
  first ++ Element.lowerAll t.origin t.beforeBody first.length t.body

def code (t : Template) : Code := .assemble t.name t.formals t.origin.source t.anonymous t.lines

end Template

/-! ## Templates inside a template -/

/-- Regions that are `P` are in the source, as far as they are kept. -/
def Origin.Allows (o : Origin) (P : Span → Prop) : Prop :=
  ∀ s, P s → ∀ p ∈ o.place s, p.Within o.source

/-- A template that the reader may give. -/
structure Template.Proper (t : Template) : Prop where
  defaults : ∀ d ∈ t.defaults, ∃ P, d.2.Proper P
  body : ∃ P, t.origin.Allows P ∧ Element.ProperAll P t.body

/-- Code that is made from a tree. -/
def Code.Lowered (c : Code) : Prop := ∃ t : Template, t.Proper ∧ t.code = c

/-- A line whose region lies in a source, and whose inner template is made from a tree. -/
structure Line.Sound (source : String) (l : Line String Code) : Prop where
  place : ∀ p ∈ l.span, p.Within source
  inner : ∀ c ∈ l.instr.inner?, c.Lowered

/-- Lines that are all sound. -/
def Line.AllSound (source : String) (lines : List (Line String Code)) : Prop :=
  ∀ l ∈ lines, l.Sound source

namespace Line.AllSound

variable {source : String} {first rest : List (Line String Code)}

theorem nil : AllSound source [] := nofun

theorem append (h : AllSound source first) (h' : AllSound source rest) :
    AllSound source (first ++ rest) :=
  List.forall_mem_append.mpr ⟨h, h'⟩

theorem cons {instr : Instr String Code} {place : Option Span} (hi : instr.inner? = none)
    (hp : ∀ p ∈ place, p.Within source) (h : AllSound source rest) :
    AllSound source (⟨instr, place⟩ :: rest) :=
  List.forall_mem_cons.mpr ⟨⟨hp, by rw [hi]; exact nofun⟩, h⟩

theorem single {instr : Instr String Code} {place : Option Span} (hi : instr.inner? = none)
    (hp : ∀ p ∈ place, p.Within source) : AllSound source [⟨instr, place⟩] :=
  cons hi hp nil

end Line.AllSound

theorem Origin.unplaced_within (o : Origin) : ∀ p ∈ o.unplaced, p.Within o.source := by
  intro p hp
  unfold Origin.unplaced Origin.place at hp
  split at hp
  · cases hp
  · cases hp
    exact ⟨o.source.toList, [], [], by simp, Text.utf8ByteSize_eq _, rfl⟩

open Line (AllSound)

variable {o : Origin} {P : Span → Prop}

mutual

theorem Expr.lower_sound (hP : o.Allows P) (n : Nat) : (e : Expr) → e.Proper P → AllSound o.source (e.lower o n)
  | .attribute _ _, h => .single rfl (hP _ h.1)
  | .literal _ _, h => .single rfl (hP _ h)
  | .truth _ _, h => .single rfl (hP _ h)
  | .list items _, h => .append (Expr.lowerAll_sound hP n items h.1) (.single rfl (hP _ h.2))
  | .property target _ _, h => .append (target.lower_sound hP n h.1) (.single rfl (hP _ h.2))
  | .propertyAt target key _, h =>
      .append (target.lower_sound hP n h.1)
        (.append (key.lower_sound hP _ h.2.1) (.single rfl (hP _ h.2.2)))
  | .call _ arguments _, h => .append (arguments.lower_sound hP n h.1) (.single rfl (hP _ h.2.1))
  | .callComputed name arguments _, h =>
      .append (name.lower_sound hP n h.1) (.cons rfl (hP _ h.1.span)
        (.append (arguments.lower_sound hP _ h.2.1) (.single rfl (hP _ h.2.2))))
  | .rendered value _, h => .append (value.lower_sound hP n h.1) (.single rfl (hP _ h.2))
  | .builtin _ argument _, h => .append (argument.lower_sound hP n h.1) (.single rfl (hP _ h.2))
  | .anonymous parameter body _, h => by
      refine List.forall_mem_singleton.mpr ⟨hP _ h.2, fun c hc => ?_⟩
      cases hc
      exact ⟨.ofAnonymous o n parameter body, ⟨nofun, P, hP, h.1⟩, rfl⟩
  | .map target templates _, h =>
      .append (target.lower_sound hP n h.1)
        (.append (Expr.lowerAll_sound hP _ templates h.2.1) (.single rfl (hP _ h.2.2.2)))

theorem Expr.lowerAll_sound (hP : o.Allows P) (n : Nat) :
    (es : List Expr) → Expr.ProperAll P es → AllSound o.source (Expr.lowerAll o n es)
  | [], _ => .nil
  | e :: rest, h => .append (e.lower_sound hP n h.1) (Expr.lowerAll_sound hP _ rest h.2)

theorem Arguments.lower_sound (hP : o.Allows P) (n : Nat) :
    (a : Arguments) → a.Proper P → AllSound o.source (a.lower o n)
  | .positional values, h => Expr.lowerAll_sound hP n values h
  | .named values, h => NamedArgument.lowerAll_sound hP n values h

theorem NamedArgument.lowerAll_sound (hP : o.Allows P) (n : Nat) : (as : List NamedArgument) →
    NamedArgument.ProperAll P as → AllSound o.source (NamedArgument.lowerAll o n as)
  | [], _ => .nil
  | ⟨_, value, _⟩ :: rest, h =>
      .cons rfl (hP _ h.2.1)
        (.append (value.lower_sound hP n h.1) (NamedArgument.lowerAll_sound hP _ rest h.2.2.1))

theorem TagOption.lower_sound (hP : o.Allows P) (n : Nat) (wanted : String) : (os : List TagOption) →
    TagOption.ProperAll P os → AllSound o.source (TagOption.lower o n wanted os)
  | [], _ => .nil
  | ⟨_, value, _⟩ :: rest, h => by
      rw [TagOption.lower]
      split
      · exact value.lower_sound hP n h.1
      · exact TagOption.lower_sound hP n wanted rest h.2.2.1

theorem Condition.lower_sound (hP : o.Allows P) (n : Nat) :
    (c : Condition) → c.Proper P → AllSound o.source (c.lower o n)
  | .value e, h => e.lower_sound hP n h
  | .not c, h => .append (c.lower_sound hP n h) (.single rfl o.unplaced_within)
  | .and a b, h =>
      .append (a.lower_sound hP n h.1)
        (.append (b.lower_sound hP _ h.2) (.single rfl o.unplaced_within))
  | .or a b, h =>
      .append (a.lower_sound hP n h.1)
        (.append (b.lower_sound hP _ h.2) (.single rfl o.unplaced_within))

theorem Element.lower_sound (hP : o.Allows P) (n start : Nat) :
    (e : Element) → e.Proper P → AllSound o.source (e.lower o n start)
  | .text _, _ => .single rfl o.unplaced_within
  | .tag value options _, h =>
      .append (value.lower_sound hP n h.1) (.append (TagOption.lower_sound hP _ _ options h.2.1)
        (.append (TagOption.lower_sound hP _ _ options h.2.1)
          (.append (TagOption.lower_sound hP _ _ options h.2.1) (.single rfl (hP _ h.2.2)))))
  | .choice branches none, h => .append (Branch.join_sound hP n start _ branches h.1) .nil
  | .choice branches (some body), h =>
      .append (Branch.join_sound hP n start _ branches h.1) (Element.lowerAll_sound hP _ _ body h.2)

theorem Element.lowerAll_sound (hP : o.Allows P) (n start : Nat) : (es : List Element) →
    Element.ProperAll P es → AllSound o.source (Element.lowerAll o n start es)
  | [], _ => .nil
  | e :: rest, h => .append (e.lower_sound hP n start h.1) (Element.lowerAll_sound hP _ _ rest h.2)

theorem Branch.join_sound (hP : o.Allows P) (n start exit : Nat) : (bs : List Branch) → Branch.ProperAll P bs →
    AllSound o.source (Branch.join exit (Branch.lowerAll o n start bs))
  | [], _ => .nil
  | ⟨condition, body, _⟩ :: rest, h =>
      .append (.append (.append (condition.lower_sound hP n h.1)
        (.cons rfl (hP _ h.2.2.1) (Element.lowerAll_sound hP _ _ body h.2.1)))
        (.single rfl (hP _ h.2.2.1))) (Branch.join_sound hP _ _ exit rest h.2.2.2)

end

/-- The code of defaults stands for no region. -/
theorem lowerDefaults_sound {o : Origin} (ho : o.inDefault = true) (n start : Nat) :
    (ds : List (String × Expr)) → (∀ d ∈ ds, ∃ P, d.2.Proper P) →
    AllSound o.source (lowerDefaults o n start ds)
  | [], _ => .nil
  | (_, value) :: rest, h => by
      have none (s : Span) : ∀ p ∈ o.place s, p.Within o.source := by
        simp [Origin.place, ho]
      obtain ⟨P, hp⟩ := h _ List.mem_cons_self
      have hv := value.lower_sound (P := P) (fun s _ => none s) n hp
      exact .append (.cons rfl (none _) (.append hv (.single rfl (none _))))
        (lowerDefaults_sound ho _ _ rest fun d hd => h d (List.mem_cons_of_mem _ hd))

theorem Template.Proper.sound {t : Template} (h : t.Proper) : AllSound t.origin.source t.lines := by
  obtain ⟨P, hP, hb⟩ := h.body
  exact .append (lowerDefaults_sound (o := { t.origin with inDefault := true }) rfl _ _ _ h.defaults)
    (Element.lowerAll_sound hP _ _ _ hb)

/-- The templates inside a template are made from trees too. -/
theorem Code.Lowered.inner {c i : Code} (h : c.Lowered) (hi : i ∈ c.inner) : i.Lowered := by
  obtain ⟨t, ht, rfl⟩ := h
  obtain ⟨l, hl, hc⟩ := List.mem_filterMap.mp hi
  exact (ht.sound l hl).inner i hc

end Stencil
