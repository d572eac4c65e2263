import Stencil.Proofs.WellFormed
/-! Templates that make text only of what they write and of what stands in parentheses. In their code the texts
of options lie right in front of the writes that take them. -/

namespace Stencil

/-! ## Trees -/

mutual

/-- Whether an expression renders nothing but what stands in parentheses: it names its properties and applies no
function to text. What a template without a name does is its own affair. -/
def Expr.direct : Expr → Bool
  | .attribute _ _ | .literal _ _ | .truth _ _ | .anonymous _ _ _ => true
  | .list items _ => Expr.directAll items
  | .property target _ _ => target.direct
  | .propertyAt _ _ _ => false
  | .call _ arguments _ => arguments.direct
  | .callComputed name arguments _ => name.direct && arguments.direct
  | .rendered value _ => value.direct
  | .builtin function argument _ => !function.takesText && argument.direct
  | .map target templates _ => target.direct && Expr.directAll templates

def Expr.directAll : List Expr → Bool
  | [] => true
  | e :: rest => e.direct && Expr.directAll rest

def Arguments.direct : Arguments → Bool
  | .positional values => Expr.directAll values
  | .named values => NamedArgument.directAll values

def NamedArgument.directAll : List NamedArgument → Bool
  | [] => true
  | ⟨_, value, _⟩ :: rest => value.direct && NamedArgument.directAll rest

end

/-- Whether options are quoted texts, and none is a format. -/
def TagOption.directAll : List TagOption → Bool
  | [] => true
  | ⟨name, .literal _ _, _⟩ :: rest => name != "format" && TagOption.directAll rest
  | _ :: _ => false

def Condition.direct : Condition → Bool
  | .value e => e.direct
  | .not c => c.direct
  | .and a b | .or a b => a.direct && b.direct

mutual

def Element.direct : Element → Bool
  | .text _ => true
  | .tag value options _ => value.direct && TagOption.directAll options
  | .choice branches none => Branch.directAll branches
  | .choice branches (some body) => Branch.directAll branches && Element.directAll body

def Element.directAll : List Element → Bool
  | [] => true
  | e :: rest => e.direct && Element.directAll rest

def Branch.directAll : List Branch → Bool
  | [] => true
  | ⟨condition, body, _⟩ :: rest => condition.direct && Element.directAll body && Branch.directAll rest

end

/-- Whether a template, with its defaults, renders nothing but what it writes and what stands in parentheses, and the
options of what it writes are quoted texts and no formats. -/
def Template.direct (t : Template) : Bool := t.defaults.all (fun d => d.2.direct) && Element.directAll t.body

/-- The program of a template that is direct. -/
def Program.Direct (p : Program) : Prop := ∃ t : Template, t.code = p.toCode ∧ t.direct = true

/-! ## Lines -/

/-- An instruction renders nothing but what it writes and what stands in parentheses, and if it takes options, the
lines in front of it put texts on the stack. -/
def Instr.Direct (front : List (Line String Code)) : Instr String Code → Prop
  | .propertyAt => False
  | .builtin function => function.takesText = false
  | .write set => set.format = false ∧ ∃ before texts, front = before ++ texts ∧ texts.length = set.names.length ∧
      ∀ l ∈ texts, ∃ s, l.instr = .pushText s
  | _ => True

/-- All lines are direct, each with those in front of it. -/
def Line.AllDirect (lines : List (Line String Code)) : Prop :=
  ∀ (a : Nat) l, lines[a]? = some l → l.instr.Direct (lines.take a)

theorem Instr.Direct.behind {i : Instr String Code} {front : List (Line String Code)} (h : i.Direct front)
    (more : List (Line String Code)) : i.Direct (more ++ front) := by
  cases i with
  | write set =>
    obtain ⟨hf, before, texts, rfl, hn, htexts⟩ := h
    exact ⟨hf, more ++ before, texts, (List.append_assoc _ _ _).symm, hn, htexts⟩
  | _ => exact h

namespace Line.AllDirect

variable {first rest : List (Line String Code)}

theorem nil : AllDirect [] := nofun

theorem append (h : AllDirect first) (h' : AllDirect rest) : AllDirect (first ++ rest) := by
  intro a l hl
  rcases Nat.lt_or_ge a first.length with ha | ha
  · rw [List.getElem?_append_left ha] at hl
    rw [List.take_append_of_le_length (Nat.le_of_lt ha)]
    exact h a l hl
  · rw [List.getElem?_append_right ha] at hl
    rw [List.take_append, List.take_of_length_le ha]
    exact (h' _ l hl).behind first

theorem single {i : Instr String Code} {place : Option Span} (hi : i.Direct []) : AllDirect [⟨i, place⟩] := by
  intro a l hl
  cases a with
  | zero =>
    cases hl
    exact hi
  | succ => cases hl

theorem cons {i : Instr String Code} {place : Option Span} (hi : i.Direct []) (h : AllDirect rest) :
    AllDirect (⟨i, place⟩ :: rest) := (single hi).append h

/-- A write behind the texts of its options. -/
theorem options {texts : List (Line String Code)} (h : ∀ l ∈ texts, ∃ s, l.instr = .pushText s) {set : OptionSet}
    (hf : set.format = false) (hn : texts.length = set.names.length) (place : Option Span) :
    AllDirect (texts ++ [⟨.write set, place⟩]) := by
  intro a l hl
  rcases Nat.lt_or_ge a texts.length with ha | ha
  · rw [List.getElem?_append_left ha] at hl
    obtain ⟨s, hs⟩ := h l (List.mem_of_getElem? hl)
    rw [hs]
    trivial
  · rw [List.getElem?_append_right ha] at hl
    obtain ⟨hz, rfl⟩ : a = texts.length ∧ l = ⟨.write set, place⟩ := by
      cases hd : a - texts.length with
      | zero =>
        rw [hd] at hl
        cases hl
        exact ⟨Nat.le_antisymm (Nat.le_of_sub_eq_zero hd) ha, rfl⟩
      | succ =>
        rw [hd] at hl
        cases hl
    rw [hz, List.take_left]
    exact ⟨hf, [], texts, rfl, hn, h⟩

end Line.AllDirect

/-! ## Code of trees -/

open Line (AllDirect)

variable {o : Origin}

mutual

theorem Expr.lower_direct (n : Nat) : (e : Expr) → e.direct = true → AllDirect (e.lower o n)
  | .attribute _ _, _ | .literal _ _, _ | .truth _ _, _ | .anonymous _ _ _, _ => .single trivial
  | .list items _, h => .append (Expr.lowerAll_direct n items h) (.single trivial)
  | .property target _ _, h => .append (target.lower_direct n h) (.single trivial)
  | .propertyAt _ _ _, h => nomatch h
  | .call _ arguments _, h => .append (arguments.lower_direct n h) (.single trivial)
  | .callComputed name arguments _, h =>
      have ⟨hn, ha⟩ := Bool.and_eq_true_iff.mp h
      .append (name.lower_direct n hn) (.cons trivial (.append (arguments.lower_direct _ ha) (.single trivial)))
  | .rendered value _, h => .append (value.lower_direct n h) (.single trivial)
  | .builtin _ argument _, h =>
      have ⟨hf, ha⟩ := Bool.and_eq_true_iff.mp h
      .append (argument.lower_direct n ha) (.single ((Bool.not_eq_true' _).mp hf))
  | .map target templates _, h =>
      have ⟨ht, hs⟩ := Bool.and_eq_true_iff.mp h
      .append (target.lower_direct n ht) (.append (Expr.lowerAll_direct _ templates hs) (.single trivial))

theorem Expr.lowerAll_direct (n : Nat) : (es : List Expr) → Expr.directAll es = true → AllDirect (Expr.lowerAll o n es)
  | [], _ => .nil
  | e :: rest, h =>
      have ⟨he, hr⟩ := Bool.and_eq_true_iff.mp h
      .append (e.lower_direct n he) (Expr.lowerAll_direct _ rest hr)

theorem Arguments.lower_direct (n : Nat) : (as : Arguments) → as.direct = true → AllDirect (as.lower o n)
  | .positional values, h => Expr.lowerAll_direct n values h
  | .named values, h => NamedArgument.lowerAll_direct n values h

theorem NamedArgument.lowerAll_direct (n : Nat) : (as : List NamedArgument) → NamedArgument.directAll as = true →
    AllDirect (NamedArgument.lowerAll o n as)
  | [], _ => .nil
  | ⟨_, value, _⟩ :: rest, h =>
      have ⟨hv, hr⟩ := Bool.and_eq_true_iff.mp h
      .cons trivial (.append (value.lower_direct n hv) (NamedArgument.lowerAll_direct _ rest hr))

end

/-- The code of an option puts its text on the stack, if there is such an option. -/
theorem TagOption.lower_direct (n : Nat) (wanted : String) : (os : List TagOption) → TagOption.directAll os = true →
    (TagOption.lower o n wanted os).length = (os.any fun option => option.name == wanted).toNat ∧
      ∀ l ∈ TagOption.lower o n wanted os, ∃ s, l.instr = .pushText s
  | [], _ => ⟨rfl, nofun⟩
  | ⟨name, .literal text _, _⟩ :: rest, h => by
      obtain ⟨-, hr⟩ := Bool.and_eq_true_iff.mp h
      rw [TagOption.lower, List.any_cons]
      split
      · rename_i hn
        rw [hn]
        exact ⟨rfl, List.forall_mem_singleton.mpr ⟨text, rfl⟩⟩
      · rename_i hn
        rw [Bool.eq_false_iff.mpr hn, Bool.false_or]
        exact TagOption.lower_direct n wanted rest hr

theorem TagOption.no_format : (os : List TagOption) → TagOption.directAll os = true →
    (os.any fun option => option.name == "format") = false
  | [], _ => rfl
  | ⟨name, .literal _ _, _⟩ :: rest, h => by
      obtain ⟨hn, hr⟩ := Bool.and_eq_true_iff.mp h
      rw [List.any_cons, TagOption.no_format rest hr, Bool.or_false]
      exact (Bool.not_eq_true' _).mp hn

theorem Condition.lower_direct (n : Nat) : (c : Condition) → c.direct = true → AllDirect (c.lower o n)
  | .value e, h => e.lower_direct n h
  | .not c, h => .append (c.lower_direct n h) (.single trivial)
  | .and a b, h | .or a b, h =>
      have ⟨ha, hb⟩ := Bool.and_eq_true_iff.mp h
      .append (a.lower_direct n ha) (.append (b.lower_direct _ hb) (.single trivial))

mutual

theorem Element.lower_direct (n start : Nat) : (e : Element) → e.direct = true → AllDirect (e.lower o n start)
  | .text _, _ => .single trivial
  | .tag value options _, h => by
      obtain ⟨hv, ho⟩ := Bool.and_eq_true_iff.mp h
      refine .append (value.lower_direct n hv) ?_
      rw [← List.append_assoc, ← List.append_assoc]
      have htexts (before : Nat) (wanted : String) := TagOption.lower_direct (o := o) before wanted options ho
      refine .options (List.forall_mem_append.mpr ⟨List.forall_mem_append.mpr ⟨(htexts _ _).2, (htexts _ _).2⟩,
        (htexts _ _).2⟩) (TagOption.no_format options ho) ?_ _
      rw [OptionSet.length_names, List.length_append, List.length_append, (htexts _ _).1, (htexts _ _).1, (htexts _ _).1]
      rfl
  | .choice branches none, h => .append (Branch.lowerAll_direct n start _ branches h) .nil
  | .choice branches (some body), h =>
      have ⟨hb, ho⟩ := Bool.and_eq_true_iff.mp h
      .append (Branch.lowerAll_direct n start _ branches hb) (Element.lowerAll_direct _ _ body ho)

theorem Element.lowerAll_direct (n start : Nat) : (es : List Element) → Element.directAll es = true →
    AllDirect (Element.lowerAll o n start es)
  | [], _ => .nil
  | e :: rest, h =>
      have ⟨he, hr⟩ := Bool.and_eq_true_iff.mp h
      .append (e.lower_direct n start he) (Element.lowerAll_direct _ _ rest hr)

theorem Branch.lowerAll_direct (n start exit : Nat) : (bs : List Branch) → Branch.directAll bs = true →
    AllDirect (Branch.join exit (Branch.lowerAll o n start bs))
  | [], _ => .nil
  | ⟨condition, body, _⟩ :: rest, h => by
      obtain ⟨hcb, hr⟩ := Bool.and_eq_true_iff.mp h
      obtain ⟨hc, hb⟩ := Bool.and_eq_true_iff.mp hcb
      exact .append (.append (.append (condition.lower_direct n hc) (.cons trivial (Element.lowerAll_direct _ _ body hb)))
        (.single trivial)) (Branch.lowerAll_direct _ _ exit rest hr)

end

theorem lowerDefaults_direct (n start : Nat) : (ds : List (String × Expr)) → (ds.all fun d => d.2.direct) = true →
    AllDirect (lowerDefaults o n start ds)
  | [], _ => .nil
  | (_, value) :: rest, h => by
      rw [List.all_cons] at h
      obtain ⟨hv, hr⟩ := Bool.and_eq_true_iff.mp h
      exact .append (.cons trivial (.append (value.lower_direct n hv) (.single trivial)))
        (lowerDefaults_direct _ _ rest hr)

theorem Template.lines_direct {t : Template} (h : t.direct = true) : AllDirect t.lines :=
  have ⟨hd, hb⟩ := Bool.and_eq_true_iff.mp h
  .append (lowerDefaults_direct _ _ _ hd) (Element.lowerAll_direct _ _ _ hb)

/-! ## Programs -/

namespace Program

variable {p : Program} {a : Nat} {place : Option Span}

/-- An instruction of a program puts a text on the stack. -/
def Pushes (p : Program) (a : Nat) : Prop := ∃ id place, p.lines[a]? = some ⟨.pushText id, place⟩

/-- Code does not jump to right behind a text. -/
theorem not_pushes_of_target {l : Line Nat Nat} (hl : p.lines[a]? = some l) {target : Nat}
    (ht : target + 1 ∈ l.instr.target?) : ¬ p.Pushes target := by
  rintro ⟨id, place, hp⟩
  obtain ⟨t, -, hcode⟩ := p.lowered
  rw [← hcode] at hl hp
  obtain ⟨l', hl', rfl⟩ := t.line_of_code hl
  obtain ⟨l'', hl'', he⟩ := t.line_of_code hp
  rw [Instr.target?_convert] at ht
  -- there are no operands where code jumps to, but one at least behind a text
  have hzero := ((t.rises rfl).2 a (Nat.zero_le _) (List.getElem?_eq_some_iff.mp hl').1 l' hl').2 _ ht
  have hrise := t.height_succ hl''
  have hafter : l''.instr.after = fun height => height + 1 := by
    rw [← Instr.after_convert, ← (Line.mk.inj he).1]
    rfl
  rw [hzero.2.2.2, hafter] at hrise
  cases hrise

namespace Direct

variable (h : p.Direct)
include h

/-- The line of a direct template that a line of its program stands for. -/
theorem line {l : Line Nat Nat} (hl : p.lines[a]? = some l) : ∃ (t : Template) (l' : Line String Code) (f : String → Nat)
    (g : Code → Nat), t.code = p.toCode ∧ t.lines[a]? = some l' ∧ l'.instr.Direct (t.lines.take a) ∧
      l.instr = l'.instr.convert f g := by
  obtain ⟨t, ht, hd⟩ := h
  rw [← ht] at hl
  obtain ⟨l', hl', rfl⟩ := t.line_of_code hl
  exact ⟨t, l', _, _, ht, hl', t.lines_direct hd a l' hl', rfl⟩

theorem not_propertyAt : p.lines[a]? ≠ some ⟨.propertyAt, place⟩ := fun hl => by
  obtain ⟨_, ⟨i, _⟩, _, _, -, -, hd, hi⟩ := h.line hl
  cases i with
  | propertyAt => exact hd
  | _ => cases hi

theorem builtin {function : Builtin} (hl : p.lines[a]? = some ⟨.builtin function, place⟩) :
    function.takesText = false := by
  obtain ⟨_, ⟨i, _⟩, _, _, -, -, hd, hi⟩ := h.line hl
  cases i with
  | builtin =>
    cases hi
    exact hd
  | _ => cases hi

/-- In front of a write there are the texts of its options. -/
theorem write {set : OptionSet} (hl : p.lines[a]? = some ⟨.write set, place⟩) : set.format = false ∧
    ∃ b, a = b + set.names.length ∧ ∀ j, b ≤ j → j < a → p.Pushes j := by
  obtain ⟨t, ⟨i, _⟩, _, _, ht, hl', hd, hi⟩ := h.line hl
  cases i with
  | write =>
    cases hi
    obtain ⟨hf, before, texts, hfront, hn, htexts⟩ := hd
    have hlen := congrArg List.length hfront
    rw [List.length_take_of_le (Nat.le_of_lt (List.getElem?_eq_some_iff.mp hl').1), List.length_append, hn] at hlen
    refine ⟨hf, before.length, hlen, fun j hb hj => ?_⟩
    have htake : (before ++ texts)[j]? = t.lines[j]? := by rw [← hfront, List.getElem?_take_of_lt hj]
    rw [List.getElem?_append_right hb] at htake
    have hlt : j - before.length < texts.length := by omega
    rw [List.getElem?_eq_getElem hlt] at htake
    obtain ⟨s, hs⟩ := htexts _ (List.getElem_mem hlt)
    have hcode : t.code.lines[j]? = _ := Line.getElem?_pool t.lines 0 j
    rw [← htake, Option.map_some, hs, ht] at hcode
    exact ⟨_, _, hcode⟩
  | _ => cases hi

end Direct

end Program

end Stencil
