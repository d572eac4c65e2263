import Mathlib.Data.List.Forall2
import Stencil.Proofs.Spelling
/-! Calls, lists, and the other primary expressions are read as they are printed, if the expressions and
bodies in them are. -/

namespace Stencil

/-! ## Between commas -/

namespace Print

/-- Texts with commas between them. -/
def separated : List (List Char) → List Char
  | [] => []
  | [c] => c
  | c :: rest => c ++ ',' :: separated rest

theorem separated_cons (c : List Char) (rest : List (List Char)) :
    ∃ tail, separated (c :: rest) = c ++ tail := by
  cases rest with
  | nil => exact ⟨[], (List.append_nil c).symm⟩
  | cons c' rest => exact ⟨_, rfl⟩

end Print

theorem Expr.printAll_eq (es : List Expr) : Expr.printAll es = Print.separated (es.map Expr.print) := by
  induction es with
  | nil => rfl
  | cons e es ih =>
    cases es with
    | nil => exact List.append_nil _
    | cons e' es => exact congrArg (e.print ++ ',' :: ·) ih

def NamedArgument.print (a : NamedArgument) : List Char := a.name.toList ++ '=' :: a.value.print

theorem NamedArgument.printAll_eq (as : List NamedArgument) :
    NamedArgument.printAll as = Print.separated (as.map NamedArgument.print) := by
  induction as with
  | nil => rfl
  | cons a as ih =>
    obtain ⟨name, value, span⟩ := a
    cases as with
    | nil => exact congrArg (name.toList ++ '=' :: ·) (List.append_nil _)
    | cons a' as =>
      have hs : Print.separated ((⟨name, value, span⟩ :: a' :: as).map NamedArgument.print) =
          name.toList ++ '=' :: value.print ++ ',' :: Print.separated ((a' :: as).map NamedArgument.print) := rfl
      rw [hs, ← ih, List.append_assoc]
      cases a'
      rfl

theorem Arguments.print_eq (a : Arguments) : ∃ cs, a.print = Print.parentheses cs := by
  cases a with
  | positional values => exact ⟨_, rfl⟩
  | named values => exact ⟨_, rfl⟩

theorem Expr.unplacedAll_eq {as bs : List Expr} (h : List.Forall₂ (·.unplaced = ·.unplaced) as bs) :
    Expr.unplacedAll as = Expr.unplacedAll bs := by
  induction h with
  | nil => rfl
  | cons he _ ih => rw [Expr.unplacedAll, Expr.unplacedAll, he, ih]

/-- Arguments with one name and one value, up to places. -/
def NamedArgument.Same (a b : NamedArgument) : Prop := a.name = b.name ∧ a.value.unplaced = b.value.unplaced

theorem NamedArgument.unplacedAll_eq {as bs : List NamedArgument} (h : List.Forall₂ Same as bs) :
    NamedArgument.unplacedAll as = NamedArgument.unplacedAll bs := by
  induction h with
  | nil => rfl
  | @cons a b _ _ he _ ih =>
    obtain ⟨_, _, _⟩ := a
    obtain ⟨_, _, _⟩ := b
    obtain ⟨rfl, hv⟩ := he
    rw [NamedArgument.unplacedAll, NamedArgument.unplacedAll, hv, ih]

namespace Reader

variable {c d cs : List Char} {x : Char} {alone : Bool} {e : Expr}

/-- What is read behind an item: a comma and further items, or nothing. -/
def followed {α : Type} (read : Reader (List α)) (a : α) : Reader (List α) := do
  let more ← (do
    if ← comma then read else return [] : Reader (List α))
  return a :: more

theorem followed_end {α : Type} (read : Reader (List α)) (a : α) (hb : Text.isBlank x = false) (hx : x ≠ ',') :
    Takes (followed read a) (x :: d) (x :: d) (· = [a]) :=
  .bind_eq (a := []) ((comma_refuses (by simpa using hb) (by simpa using hx)).bind_eq (.pure rfl)) (.pure rfl)

theorem followed_more {α : Type} {read : Reader (List α)} {P : List α → Prop} {Q : List α → Prop} (a : α)
    (hb : ∀ y ∈ c.head?, Text.isBlank y = false) (h : Takes read c d P) (hQ : ∀ as, P as → Q (a :: as)) :
    Takes (followed read a) (',' :: c) d Q := by
  have hc := comma_takes (c := c)
  rw [dropWhile_isBlank hb] at hc
  exact .bind (hc.bind_eq h) fun as has => .pure (hQ as has)

/-- A reader of items between commas, of which it is known how it reads one. -/
theorem separated_takes {α β : Type} {read : Nat → Reader (List α)} {print : β → List Char}
    {Same : α → β → Prop} (hb : Text.isBlank x = false) (hx : x ≠ ',') (items : List β)
    (hstarts : ∀ b ∈ items, ∀ d, ∀ y ∈ (print b ++ d).head?, Text.isBlank y = false)
    (hitem : ∀ b ∈ items, ∀ {n : Nat} {y : Char} {d e : List Char} {Q : List α → Prop}, 16 * (print b).length ≤ n →
      (y = ',' ∨ y = x) → (∀ a, Same a b → Takes (followed (read n) a) (y :: d) e Q) →
      Takes (read (n + 1)) (print b ++ y :: d) e Q) (hne : items ≠ []) {n : Nat}
    (hn : 16 * (Print.separated (items.map print)).length < n) :
    Takes (read n) (Print.separated (items.map print) ++ x :: d) (x :: d) (List.Forall₂ Same · items) := by
  induction items generalizing n with
  | nil => exact absurd rfl hne
  | cons b items ih =>
    obtain ⟨n, rfl⟩ : ∃ k, n = k + 1 := ⟨n - 1, by omega⟩
    cases items with
    | nil =>
      refine hitem b (List.mem_singleton_self b) (by simpa [Print.separated] using Nat.le_of_lt_succ hn)
        (.inr rfl) fun a ha => ?_
      exact (followed_end _ a hb hx).mono fun as has => has ▸ .cons ha .nil
    | cons b' items =>
      have hs : Print.separated ((b :: b' :: items).map print) =
          print b ++ ',' :: Print.separated ((b' :: items).map print) := rfl
      rw [hs, List.length_append, List.length_cons] at hn
      rw [hs, List.append_assoc, List.cons_append]
      refine hitem b List.mem_cons_self (by omega) (.inl rfl) fun a ha => ?_
      refine followed_more a ?_ (ih (fun b hb => hstarts b (List.mem_cons_of_mem _ hb))
        (fun b hb => hitem b (List.mem_cons_of_mem _ hb)) (List.cons_ne_nil _ _) (by omega))
        fun as has => .cons ha has
      obtain ⟨tail, ht⟩ := Print.separated_cons (print b') (items.map print)
      rw [List.map_cons, ht, List.append_assoc]
      exact hstarts b' (List.mem_cons_of_mem _ List.mem_cons_self) _

/-! ## Arguments and lists -/

/-- Items that expressions are read as. -/
def ReadsItems (es : List Expr) : Prop := ∀ e ∈ es, Starts e.print ∧ Spells false e.print e

theorem EndsExpression.item {y : Char} (hx : x = ')' ∨ x = ']') (hy : y = ',' ∨ y = x) (d : List Char) :
    EndsExpression false (y :: d) := by
  rcases hy with rfl | rfl
  · exact .comma d
  · exact .of_sign false (hx.imp_right .inl) d

theorem listItems_takes {es : List Expr} (h : ReadsItems es) (hne : es ≠ []) {n : Nat}
    (hn : 16 * (Expr.printAll es).length < n) :
    Takes (listItems n) (Expr.printAll es ++ ']' :: d) (']' :: d)
      (Expr.unplacedAll · = Expr.unplacedAll es) := by
  rw [Expr.printAll_eq] at hn ⊢
  refine (separated_takes (by decide) (by decide) es (fun e he => (h e he).1.not_blank)
    (fun e he n y d _ _ hn hy hgo => ?_) hne hn).mono fun _ => Expr.unplacedAll_eq
  rw [listItems]
  exact ((h e he).2 n hn (.item (.inr rfl) hy d)).bind hgo

theorem positionalArguments_takes {es : List Expr} (h : ReadsItems es) (hne : es ≠ []) {n : Nat}
    (hn : 16 * (Expr.printAll es).length < n) :
    Takes (positionalArguments n) (Expr.printAll es ++ ')' :: d) (')' :: d)
      (Expr.unplacedAll · = Expr.unplacedAll es) := by
  rw [Expr.printAll_eq] at hn ⊢
  refine (separated_takes (by decide) (by decide) es (fun e he => (h e he).1.not_blank)
    (fun e he n y d _ _ hn hy hgo => ?_) hne hn).mono fun _ => Expr.unplacedAll_eq
  rw [positionalArguments]
  refine .get_bind fun offset => ?_
  rw [(h e he).1.startsNamed hy, if_neg Bool.false_ne_true]
  exact ((h e he).2 n hn (.item (.inl rfl) hy d)).bind hgo

/-- Named arguments that are read as they are printed. -/
def ReadsNamed (as : List NamedArgument) : Prop :=
  ∀ a ∈ as, isName a.name = true ∧ Starts a.value.print ∧ Spells false a.value.print a.value

/-- An argument is named where its name and an equals sign are next, as no expression starts with another. -/
theorem startsNamed_print {a : NamedArgument} (ha : isName a.name = true) (hv : Starts a.value.print)
    (d : List Char) (offset : Nat) : startsNamed ⟨a.print ++ d, offset⟩ = true := by
  obtain ⟨x, more, hx, -, -, -, -, hne⟩ := hv.head
  rw [NamedArgument.print, List.append_assoc, List.cons_append, startsNamed_name ha (by decide) (by decide), hx]
  simpa using hne

theorem namedArguments_takes {as : List NamedArgument} (h : ReadsNamed as) (hne : as ≠ []) {n : Nat}
    (hn : 16 * (NamedArgument.printAll as).length < n) :
    Takes (namedArguments n) (NamedArgument.printAll as ++ ')' :: d) (')' :: d)
      (NamedArgument.unplacedAll · = NamedArgument.unplacedAll as) := by
  rw [NamedArgument.printAll_eq] at hn ⊢
  refine (separated_takes (by decide) (by decide) as (fun a ha d y hy => ?_)
    (fun a ha n y d _ _ hn hy hgo => ?_) hne hn).mono fun _ => NamedArgument.unplacedAll_eq
  · rw [NamedArgument.print, List.append_assoc] at hy
    exact not_blank_of_isName (h a ha).1 _ y hy
  · obtain ⟨hname, hs, hv⟩ := h a ha
    rw [namedArguments]
    refine .get_bind fun offset => ?_
    rw [startsNamed_print hname hs, if_pos rfl]
    rw [NamedArgument.print, List.length_append, List.length_cons] at hn
    rw [NamedArgument.print, List.append_assoc, List.cons_append]
    refine .offset_bind fun start => (name_takes hname _ fun w hw => by cases hw; rfl).bind_eq ?_
    refine .offset_bind fun stop => (blanks_none fun w hw => by cases hw; rfl).bind fun _ _ => ?_
    refine (expect_next rfl).bind fun _ _ => (blanks_none (hs.not_blank _)).bind fun _ _ => ?_
    exact (hv n (by omega) (.item (.inl rfl) hy d)).bind fun v hv => hgo _ ⟨rfl, hv⟩

/-- What a call passes, read as it is printed. -/
def SpellsArguments (a : Arguments) : Prop :=
  ∀ ⦃d : List Char⦄ (n : Nat), 16 * a.print.length ≤ n →
    Takes (arguments n) (a.print ++ d) d (·.unplaced = a.unplaced)

theorem arguments_none : SpellsArguments (.positional []) := by
  intro d n hn
  obtain ⟨n, rfl⟩ : ∃ k, n = k + 1 := ⟨n - 1, by simp [Arguments.print] at hn; omega⟩
  rw [arguments, Arguments.print, Expr.printAll, Print.parentheses_append, List.nil_append]
  refine (expect_next rfl).bind fun _ _ => (blanks_none fun y hy => by cases hy; rfl).bind fun _ _ => ?_
  exact (accept_next rfl).bind_eq (.pure rfl)

/-- Arguments of one kind between parentheses. -/
theorem arguments_some (named : Bool) {a : Arguments} (hp : a.print = Print.parentheses cs)
    (hb : ∀ d, (∀ y ∈ (cs ++ d).head?, Text.isBlank y = false) ∧ (cs ++ d).head? ≠ some ')')
    (hnamed : ∀ offset, startsNamed ⟨cs ++ ')' :: d, offset⟩ = named)
    (h : ∀ n, 16 * cs.length < n → Takes
      (if named then do return .named (← namedArguments n)
        else do return .positional (← positionalArguments n) : Reader Arguments)
      (cs ++ ')' :: d) (')' :: d) (·.unplaced = a.unplaced))
    {n : Nat} (hn : 16 * a.print.length ≤ n) :
    Takes (arguments n) (a.print ++ d) d (·.unplaced = a.unplaced) := by
  rw [hp, Print.length_parentheses] at hn
  obtain ⟨n, rfl⟩ : ∃ k, n = k + 1 := ⟨n - 1, by omega⟩
  rw [arguments, hp, Print.parentheses_append]
  refine (expect_next rfl).bind fun _ _ => (blanks_none (hb _).1).bind fun _ _ => ?_
  refine (accept_refuses (isPrefixOf_head rfl (hb _).2)).bind_eq ?_
  refine .bind (.get_bind fun offset => (hnamed offset).symm ▸ h n (by omega)) fun passed hpassed => ?_
  refine (blanks_none fun y hy => by cases hy; rfl).bind fun _ _ => ?_
  exact (expect_next rfl).bind fun _ _ => .pure hpassed

theorem arguments_positional {es : List Expr} (h : ReadsItems es) : SpellsArguments (.positional es) := by
  cases es with
  | nil => exact arguments_none
  | cons e es =>
    intro d n hn
    have he := (h e List.mem_cons_self).1
    refine arguments_some false rfl (fun d => ?_) (fun offset => ?_) (fun n hn => ?_) hn
    · rw [Expr.printAll, List.append_assoc]
      exact ⟨he.not_blank _, he.head_ne (.inl rfl) _⟩
    · cases es with
      | nil => simpa [Expr.printAll, Expr.printMore] using he.startsNamed (.inr rfl) d offset
      | cons e' es => simpa [Expr.printAll, Expr.printMore] using he.startsNamed (.inl rfl) _ offset
    · exact (positionalArguments_takes h (List.cons_ne_nil e es) hn).bind fun es' hes =>
        .pure (by rw [Arguments.unplaced, hes, Arguments.unplaced])

theorem arguments_named {as : List NamedArgument} (h : ReadsNamed as) (hne : as ≠ []) :
    SpellsArguments (.named as) := by
  cases as with
  | nil => exact absurd rfl hne
  | cons a as =>
    intro d n hn
    obtain ⟨hname, hv, -⟩ := h a List.mem_cons_self
    have hp : ∃ tail, NamedArgument.printAll (a :: as) = a.print ++ tail := by
      rw [NamedArgument.printAll_eq]
      exact Print.separated_cons _ _
    obtain ⟨tail, hp⟩ := hp
    refine arguments_some true rfl (fun d => ?_) (fun offset => ?_) (fun n hn => ?_) hn
    · rw [hp, List.append_assoc, NamedArgument.print, List.append_assoc]
      obtain ⟨x, rest, hl, hx, -⟩ := isName_iff.mp hname
      refine ⟨not_blank_of_isName hname _, ?_⟩
      rw [hl]
      rintro ⟨⟩
      exact absurd hx (by decide)
    · rw [hp, List.append_assoc]
      exact startsNamed_print hname hv _ offset
    · exact (namedArguments_takes h hne hn).bind fun as' has =>
        .pure (by rw [Arguments.unplaced, has, Arguments.unplaced])

/-! ## Primary expressions -/

/-- The list without the place of its brackets. -/
theorem SpellsPrimary.list {items : List Expr} (h : ReadsItems items) (span : Span) :
    SpellsPrimary (Expr.list items span).print (.list items span) := by
  intro d n hn _ _
  rw [Expr.print, List.length_cons, List.length_append, List.length_singleton] at hn
  obtain ⟨n, rfl⟩ : ∃ k, n = k + 1 := ⟨n - 1, by omega⟩
  rw [Expr.print, List.cons_append, List.append_assoc, List.singleton_append, primary]
  refine .offset_bind fun start => .peek_bind ((expect_next rfl).bind fun _ _ => ?_)
  cases items with
  | nil =>
    refine (blanks_none fun y hy => by cases hy; rfl).bind fun _ _ => ?_
    refine .bind_eq (a := []) ((accept_next rfl).bind_eq (.pure rfl)) ?_
    exact .offset_bind fun stop => .pure rfl
  | cons e es =>
    have he := (h e List.mem_cons_self).1
    have hb : (∀ y ∈ (Expr.printAll (e :: es) ++ ']' :: d).head?, Text.isBlank y = false) ∧
        (Expr.printAll (e :: es) ++ ']' :: d).head? ≠ some ']' := by
      rw [Expr.printAll, List.append_assoc]
      exact ⟨he.not_blank _, he.head_ne (.inr (.inl rfl)) _⟩
    refine (blanks_none hb.1).bind fun _ _ => ?_
    refine .bind (P := (Expr.unplacedAll · = Expr.unplacedAll (e :: es))) (d := d)
      ((accept_refuses (isPrefixOf_head rfl hb.2)).bind_eq ?_) fun es' hes => ?_
    · refine (listItems_takes h (List.cons_ne_nil e es) (by omega)).bind fun es' hes => ?_
      refine (blanks_none fun y hy => by cases hy; rfl).bind fun _ _ => ?_
      exact (expect_next rfl).bind fun _ _ => .pure hes
    · exact .offset_bind fun stop => .pure (by rw [Expr.unplaced, hes, Expr.unplaced])

theorem SpellsPrimary.literal (s : String) (span : Span) :
    SpellsPrimary (Print.quoted s) (.literal s span) := by
  intro d n hn _ _
  obtain ⟨n, rfl⟩ : ∃ k, n = k + 1 := ⟨n - 1, by simp [Print.quoted] at hn; omega⟩
  have hq := quoted_takes (d := d) s
  rw [Print.quoted, List.cons_append] at hq ⊢
  rw [primary]
  refine .offset_bind fun start => .peek_bind (hq.bind_eq ?_)
  exact .offset_bind fun stop => .pure rfl

/-- A parenthesis that arguments do not follow. -/
theorem SpellsPrimary.rendered (h : Spells true cs e) (hcs : Starts cs) (span : Span) :
    SpellsPrimary (Print.parentheses cs) (.rendered e span) := by
  intro d n hn ha _
  rw [Print.length_parentheses] at hn
  obtain ⟨n, rfl⟩ : ∃ k, n = k + 1 := ⟨n - 1, by omega⟩
  have hread := parenthesized_takes (d := d) h hcs (n := n) (by omega)
  rw [Print.parentheses_append] at hread ⊢
  rw [primary]
  refine .offset_bind fun start => .peek_bind (hread.bind fun e' he => ?_)
  refine .startsWith_other rfl (fun hd => (ha '(' hd).2 rfl) ?_
  exact .offset_bind fun stop => .pure (by rw [Expr.unplaced, he, Expr.unplaced])

theorem SpellsPrimary.callComputed (h : Spells true cs e) (hcs : Starts cs) {a : Arguments}
    (hargs : SpellsArguments a) (span : Span) :
    SpellsPrimary (Print.parentheses cs ++ a.print) (.callComputed e a span) := by
  intro d n hn _ _
  rw [List.length_append, Print.length_parentheses] at hn
  obtain ⟨n, rfl⟩ : ∃ k, n = k + 1 := ⟨n - 1, by omega⟩
  have hread := parenthesized_takes (d := a.print ++ d) h hcs (n := n) (by omega)
  have ha := hargs (d := d) n (by omega)
  obtain ⟨as, has⟩ := Arguments.print_eq a
  rw [List.append_assoc]
  rw [Print.parentheses_append] at hread ⊢
  rw [primary]
  refine .offset_bind fun start => .peek_bind (hread.bind fun e' he => ?_)
  rw [has, Print.parentheses_append] at ha ⊢
  refine .startsWith_next rfl (ha.bind fun a' ha' => ?_)
  exact .offset_bind fun stop => .pure (by rw [Expr.unplaced, he, ha', Expr.unplaced])

/-! ## Expressions that start with a name -/

theorem superDot_refuses {s : String} (h : s = "super" → d.head? ≠ some '.') :
    Takes (superDot s) d d (· = false) := by
  unfold superDot
  split
  · rename_i hs
    exact accept_refuses (isPrefixOf_head rfl (h (beq_iff_eq.mp hs)))
  · exact .pure rfl

/-- Where a name starts, a primary expression starts with it. -/
theorem primary_named {s : String} (hs : isName s = true) {n : Nat} {P : Expr → Prop}
    (h : ∀ start, Takes (named n start) (s.toList ++ c) d P) : Takes (primary (n + 1)) (s.toList ++ c) d P := by
  obtain ⟨x, rest, hl, hx, -⟩ := isName_iff.mp hs
  rw [primary]
  refine .offset_bind fun start => .peek_bind ?_
  have h := h start
  rw [hl, List.cons_append] at h ⊢
  rw [List.head?_cons]
  split
  -- no name starts with one of the signs
  iterate 4
    · rename_i hsign
      cases hsign
      exact absurd hx (by decide)
  · rename_i y _ _ _ _ hy
    cases hy
    rw [if_pos hx]
    exact h
  · rename_i hsign
    cases hsign

/-- A name alone: an attribute, or one of the truth values. -/
theorem named_alone {s : String} (hs : isName s = true) (ha : Apart d)
    (hsuper : s = "super" → d.head? ≠ some '.') (n start : Nat) :
    Takes (named (n + 1) start) (s.toList ++ d) d fun e => ∃ span, e =
      if s == "true" then .truth true span else if s == "false" then .truth false span
      else .attribute s span := by
  rw [named]
  refine (name_takes hs _ fun y hy => (ha y hy).1).bind_eq ((superDot_refuses hsuper).bind_eq ?_)
  refine .startsWith_other rfl (fun hd => (ha '(' hd).2 rfl) ?_
  exact .offset_bind fun stop => .pure ⟨_, rfl⟩

/-- A name alone spells what it is read as. -/
theorem SpellsPrimary.bare {s : String} (hs : isName s = true) {e : Expr} (hsuper : s = "super" → ¬e.IsTarget)
    (he : ∀ span, (if s == "true" then Expr.truth true span else if s == "false" then .truth false span
      else .attribute s span).unplaced = e.unplaced) : SpellsPrimary s.toList e := by
  intro d n hn ha htarget
  have hpos := length_pos_of_isName hs
  obtain ⟨n, rfl⟩ : ∃ k, n = k + 2 := ⟨n - 2, by omega⟩
  refine primary_named hs fun start =>
    (named_alone hs ha (fun h hdot => hsuper h (htarget hdot)) n start).mono fun _ hread => ?_
  obtain ⟨span, rfl⟩ := hread
  exact he span

theorem SpellsPrimary.attribute {s : String} (hs : isName s = true) (ht : s ≠ "true") (hf : s ≠ "false")
    (span : Span) : SpellsPrimary s.toList (.attribute s span) :=
  .bare hs (fun h htarget => htarget h) fun _ => by simp [ht, hf, Expr.unplaced]

theorem SpellsPrimary.truth (b : Bool) (span : Span) :
    SpellsPrimary (Expr.truth b span).print (.truth b span) := by
  cases b with
  | true => exact .bare (s := "true") (by decide) (fun h => absurd h (by decide)) fun _ => rfl
  | false => exact .bare (s := "false") (by decide) (fun h => absurd h (by decide)) fun _ => rfl

theorem SpellsPrimary.builtin (f : Builtin) (h : Spells true cs e) (hcs : Starts cs) (span : Span) :
    SpellsPrimary (f.name.toList ++ Print.parentheses cs) (.builtin f e span) := by
  intro d n hn ha _
  rw [List.length_append, Print.length_parentheses] at hn
  obtain ⟨n, rfl⟩ : ∃ k, n = k + 2 := ⟨n - 2, by omega⟩
  have hf : isName f.name = true := by cases f <;> decide
  have hread := parenthesized_takes (d := d) h hcs (n := n) (by omega)
  rw [List.append_assoc]
  refine primary_named hf fun start => ?_
  rw [Print.parentheses_append] at hread ⊢
  rw [named]
  refine (name_takes hf _ fun y hy => by cases hy; rfl).bind_eq ?_
  refine (superDot_refuses fun _ => by simp).bind_eq (.startsWith_next rfl ?_)
  rw [Builtin.ofName?_name]
  refine hread.bind fun e' he => ?_
  exact .offset_bind fun stop => .pure (by rw [Expr.unplaced, he, Expr.unplaced])

/-- What stands behind `super.` in a call. -/
theorem inheritedCall_takes {s : String} (hs : isName s = true) {a : Arguments} (ha : SpellsArguments a)
    (span : Span) {n : Nat} (hn : 16 * a.print.length < n) (start : Nat) :
    Takes (inheritedCall n start) (s.toList ++ (a.print ++ d)) d
      (·.unplaced = (Expr.call ⟨s, true⟩ a span).unplaced) := by
  obtain ⟨n, rfl⟩ : ∃ k, n = k + 1 := ⟨n - 1, by omega⟩
  obtain ⟨as, has⟩ := Arguments.print_eq a
  have hread := ha (d := d) n (by omega)
  rw [has, Print.parentheses_append] at hread ⊢
  rw [inheritedCall]
  refine (name_takes hs _ fun y hy => by cases hy; rfl).bind_eq (hread.bind fun a' ha' => ?_)
  exact .offset_bind fun stop => .pure (by rw [Expr.unplaced, ha', Expr.unplaced])

theorem SpellsPrimary.call {s : String} (hs : isName s = true) (hf : Builtin.ofName? s = none) {a : Arguments}
    (ha : SpellsArguments a) (span : Span) :
    SpellsPrimary (s.toList ++ a.print) (.call ⟨s, false⟩ a span) := by
  intro d n hn _ _
  obtain ⟨as, has⟩ := Arguments.print_eq a
  have hpos := length_pos_of_isName hs
  rw [List.length_append] at hn
  obtain ⟨n, rfl⟩ : ∃ k, n = k + 2 := ⟨n - 2, by omega⟩
  have hread := ha (d := d) n (by omega)
  rw [List.append_assoc]
  refine primary_named hs fun start => ?_
  rw [has, Print.parentheses_append] at hread ⊢
  rw [named]
  refine (name_takes hs _ fun y hy => by cases hy; rfl).bind_eq ?_
  refine (superDot_refuses fun _ => by simp).bind_eq (.startsWith_next rfl ?_)
  rw [hf]
  refine hread.bind fun a' ha' => ?_
  exact .offset_bind fun stop => .pure (by rw [Expr.unplaced, ha', Expr.unplaced])

theorem Expr.print_inherited (s : String) (a : Arguments) (span : Span) :
    (Expr.call ⟨s, true⟩ a span).print = "super".toList ++ '.' :: (s.toList ++ a.print) := rfl

theorem SpellsPrimary.inherited {s : String} (hs : isName s = true) {a : Arguments}
    (ha : SpellsArguments a) (span : Span) :
    SpellsPrimary (Expr.call ⟨s, true⟩ a span).print (.call ⟨s, true⟩ a span) := by
  intro d n hn _ _
  rw [Expr.print_inherited, List.length_append, List.length_cons, List.length_append] at hn
  obtain ⟨n, rfl⟩ : ∃ k, n = k + 2 := ⟨n - 2, by omega⟩
  rw [Expr.print_inherited, List.append_assoc]
  refine primary_named (by decide) fun start => ?_
  rw [List.cons_append, List.append_assoc, named]
  refine (name_takes (by decide) _ fun y hy => by cases hy; rfl).bind_eq ?_
  exact (accept_next rfl).bind_eq (inheritedCall_takes hs ha span (by omega) start)

/-! ## Templates to map -/

/-- Where a name starts, a template to map is called by it. -/
theorem mapTarget_named {s : String} (hs : isName s = true) {n : Nat} {P : Expr → Prop}
    (h : ∀ start, Takes (do
      let name ← name .expectedMapTemplate
      if ← superDot name then inheritedCall n start
      else
        let arguments ← arguments n
        return .call ⟨name, false⟩ arguments (.between start (← offset))) (s.toList ++ c) d P) :
    Takes (mapTarget (n + 1)) (s.toList ++ c) d P := by
  obtain ⟨x, rest, hl, hx, -⟩ := isName_iff.mp hs
  rw [mapTarget]
  refine .offset_bind fun start => .peek_bind ?_
  have h := h start
  rw [hl, List.cons_append] at h ⊢
  rw [List.head?_cons]
  split
  iterate 2
    · rename_i hsign
      cases hsign
      exact absurd hx (by decide)
  · rename_i y _ _ hy
    cases hy
    rw [if_pos hx]
    exact h
  · rename_i hsign
    cases hsign

theorem SpellsTemplate.call {s : String} (hs : isName s = true) {a : Arguments} (ha : SpellsArguments a)
    (span : Span) : SpellsTemplate (s.toList ++ a.print) (.call ⟨s, false⟩ a span) := by
  intro d n hn
  obtain ⟨as, has⟩ := Arguments.print_eq a
  have hpos := length_pos_of_isName hs
  rw [List.length_append] at hn
  obtain ⟨n, rfl⟩ : ∃ k, n = k + 1 := ⟨n - 1, by omega⟩
  have hread := ha (d := d) n (by omega)
  rw [List.append_assoc]
  refine mapTarget_named hs fun start => ?_
  rw [has, Print.parentheses_append] at hread ⊢
  refine (name_takes hs _ fun y hy => by cases hy; rfl).bind_eq ?_
  refine (superDot_refuses fun _ => by simp).bind_eq (hread.bind fun a' ha' => ?_)
  exact .offset_bind fun stop => .pure (by rw [Expr.unplaced, ha', Expr.unplaced])

theorem SpellsTemplate.inherited {s : String} (hs : isName s = true) {a : Arguments}
    (ha : SpellsArguments a) (span : Span) :
    SpellsTemplate (Expr.call ⟨s, true⟩ a span).print (.call ⟨s, true⟩ a span) := by
  intro d n hn
  rw [Expr.print_inherited, List.length_append, List.length_cons, List.length_append] at hn
  obtain ⟨n, rfl⟩ : ∃ k, n = k + 1 := ⟨n - 1, by omega⟩
  rw [Expr.print_inherited, List.append_assoc]
  refine mapTarget_named (by decide) fun start => ?_
  rw [List.cons_append, List.append_assoc]
  refine (name_takes (by decide) _ fun y hy => by cases hy; rfl).bind_eq ?_
  exact (accept_next rfl).bind_eq (inheritedCall_takes hs ha span (by omega) start)

theorem SpellsTemplate.callComputed (h : Spells true cs e) (hcs : Starts cs) {a : Arguments}
    (hargs : SpellsArguments a) (span : Span) :
    SpellsTemplate (Print.parentheses cs ++ a.print) (.callComputed e a span) := by
  intro d n hn
  rw [List.length_append, Print.length_parentheses] at hn
  obtain ⟨n, rfl⟩ : ∃ k, n = k + 1 := ⟨n - 1, by omega⟩
  have hread := parenthesized_takes (d := a.print ++ d) h hcs (n := n) (by omega)
  rw [List.append_assoc]
  rw [Print.parentheses_append] at hread ⊢
  rw [mapTarget]
  refine .offset_bind fun start => .peek_bind (hread.bind fun e' he => ?_)
  refine (hargs n (by omega)).bind fun a' ha' => ?_
  exact .offset_bind fun stop => .pure (by rw [Expr.unplaced, he, ha', Expr.unplaced])

/-! ## Maps -/

/-- Templates that are read as they are printed. -/
def ReadsTemplates (ts : List Expr) : Prop := ∀ t ∈ ts, Starts t.print ∧ SpellsTemplate t.print t

/-- The templates behind the first, if no further comma stands behind them. -/
theorem mapTargets_takes {ts : List Expr} (h : ReadsTemplates ts)
    (hd : (d.dropWhile Text.isBlank).head? ≠ some ',') {n : Nat} (hn : 16 * (Expr.printMore ts).length < n) :
    Takes (mapTargets n) (Expr.printMore ts ++ d) d (Expr.unplacedAll · = Expr.unplacedAll ts) := by
  induction ts generalizing n with
  | nil =>
    obtain ⟨n, rfl⟩ : ∃ k, n = k + 1 := ⟨n - 1, by omega⟩
    rw [mapTargets, Expr.printMore, List.nil_append]
    exact (operator_refuses (isPrefixOf_head rfl hd)).bind_eq (.pure rfl)
  | cons t ts ih =>
    obtain ⟨hs, ht⟩ := h t List.mem_cons_self
    rw [Expr.printMore, List.length_cons, List.length_append] at hn
    obtain ⟨n, rfl⟩ : ∃ k, n = k + 1 := ⟨n - 1, by omega⟩
    rw [mapTargets, Expr.printMore, List.cons_append, List.append_assoc]
    refine (operator_next rfl (by decide) (hs.not_blank _)).bind_eq ((ht n (by omega)).bind fun t' ht' => ?_)
    refine (ih (fun t ht => h t (List.mem_cons_of_mem _ ht)) (by omega)).bind fun ts' hts => .pure ?_
    rw [Expr.unplacedAll, ht', hts, Expr.unplacedAll]

theorem SpellsChain.map (h : SpellsChain alone cs e) {ts : List Expr} (hts : ReadsTemplates ts) (hne : ts ≠ [])
    (hone : alone = false → ts.length = 1) (span : Span) :
    SpellsChain alone (cs ++ ':' :: Expr.printAll ts) (.map e ts span) := by
  intro d d' Q n start hn hd hgo
  cases ts with
  | nil => exact absurd rfl hne
  | cons t ts =>
    obtain ⟨hs, ht⟩ := hts t List.mem_cons_self
    rw [Expr.printAll, List.length_append, List.length_cons, List.length_append] at hn hgo
    rw [Expr.printAll, List.append_assoc, List.cons_append, List.append_assoc]
    refine h n start (by omega) (.colon alone _) fun m e' hm he => ?_
    obtain ⟨m, rfl⟩ : ∃ k, m = k + 1 := ⟨m - 1, by omega⟩
    rw [maps]
    refine (operator_next rfl (by decide) (hs.not_blank _)).bind_eq ((ht m (by omega)).bind fun t' ht' => ?_)
    refine .bind (P := (Expr.unplacedAll · = Expr.unplacedAll ts)) (d := d) ?_ fun ts' hts' => ?_
    · cases alone with
      | true => exact mapTargets_takes (fun t ht => hts t (List.mem_cons_of_mem _ ht)) (hd.no_comma rfl) (by omega)
      | false =>
        obtain rfl : ts = [] := List.length_eq_zero_iff.mp (by simpa using hone rfl)
        exact .pure rfl
    · exact .offset_bind fun stop => hgo m _ (by omega)
        (by rw [Expr.unplaced, Expr.unplacedAll, he, ht', hts', Expr.unplaced, Expr.unplacedAll])

end Reader

end Stencil
