import Stencil.Proofs.Wording
/-! How text spells expressions: where they start, what may stand behind them, and the chains of
properties and of maps that readers go on with. -/

namespace Stencil.Reader

variable {c d cs : List Char} {x : Char}

/-! ## Starts of expressions -/

theorem isBlank_of_startsName (h : startsName x = true) : Text.isBlank x = false := by
  have hx := code_of_startsName h
  simp only [Text.isBlank, Text.inRanges, Text.blankRanges, List.any_cons, List.any_nil, Bool.or_false,
    Bool.or_eq_false_iff, Bool.and_eq_false_iff, decide_eq_false_iff_not]
  omega

theorem length_pos_of_isName {s : String} (hs : isName s = true) : 1 ≤ s.toList.length := by
  obtain ⟨x, rest, hl, -⟩ := isName_iff.mp hs
  rw [hl]
  exact Nat.succ_le_succ (Nat.zero_le _)

theorem not_blank_of_isName {s : String} (hs : isName s = true) (d : List Char) :
    ∀ x ∈ (s.toList ++ d).head?, Text.isBlank x = false := by
  obtain ⟨x, rest, hl, hx, -⟩ := isName_iff.mp hs
  intro y hy
  rw [hl] at hy
  cases hy
  exact isBlank_of_startsName hx

/-- Signs that an expression starts with. -/
def opensExpression (x : Char) : Bool := x == '"' || x == '[' || x == '\x7b' || x == '('

/-- Text that starts as expressions do: with a name, or with a sign. What follows the name shows that no
named argument is next. -/
inductive Starts : List Char → Prop where
  | name {s : String} (hs : isName s = true) {more : List Char}
      (hm : ∀ x ∈ more.head?, x = '(' ∨ x = '.' ∨ x = ':') : Starts (s.toList ++ more)
  | sign {x : Char} (hx : opensExpression x = true) (more : List Char) : Starts (x :: more)

/-- What stands behind a name decides whether it names an argument. -/
theorem startsNamed_name {s : String} (hs : isName s = true) (hx : continuesName x = false)
    (hb : Text.isBlank x = false) (d : List Char) (offset : Nat) :
    startsNamed ⟨s.toList ++ x :: d, offset⟩ = (x == '=' && d.head? != some '=') := by
  obtain ⟨y, rest, hl, hy, hall⟩ := isName_iff.mp hs
  have hd := (takeWhile_append (d := x :: d) hall fun z hz => by cases hz; exact hx).2
  rw [startsNamed, hl, hd, dropWhile_isBlank fun z hz => by cases hz; exact hb]
  simp only [List.cons_append, hy, Bool.true_and]
  by_cases he : x = '='
  · subst he
    cases d with
    | nil => rfl
    | cons z d =>
      by_cases hz : z = '='
      · subst hz
        rfl
      · have hd : (some z != some '=') = true := by simpa using hz
        rw [List.head?_cons, hd]
        split <;> simp_all
  · split <;> simp_all

namespace Starts

theorem append (h : Starts cs) (hx : x = '.' ∨ x = ':') (more : List Char) : Starts (cs ++ x :: more) := by
  cases h with
  | @name s hs rest hm =>
    rw [List.append_assoc]
    refine .name hs fun y hy => ?_
    cases rest with
    | nil =>
      cases hy
      exact .inr hx
    | cons z rest => exact hm y hy
  | sign hx rest => exact .sign hx _

/-- The first character is none of those that readers test for in front of an expression. -/
theorem head (h : Starts cs) : ∃ x more, cs = x :: more ∧
    Text.isBlank x = false ∧ x ≠ ')' ∧ x ≠ ']' ∧ x ≠ '!' ∧ x ≠ '=' := by
  cases h with
  | name hs hm =>
    obtain ⟨x, rest, hl, hx, -⟩ := isName_iff.mp hs
    refine ⟨x, rest ++ _, by rw [hl]; rfl, isBlank_of_startsName hx, ?_⟩
    refine ⟨?_, ?_, ?_, ?_⟩ <;> (rintro rfl; revert hx; decide)
  | @sign x hx more =>
    refine ⟨x, more, rfl, ?_⟩
    simp only [opensExpression, Bool.or_eq_true, beq_iff_eq] at hx
    rcases hx with ((rfl | rfl) | rfl) | rfl <;> decide

theorem length_pos (h : Starts cs) : 1 ≤ cs.length := by
  obtain ⟨x, more, rfl, -⟩ := h.head
  exact Nat.succ_le_succ (Nat.zero_le _)

theorem not_blank (h : Starts cs) (d : List Char) : ∀ x ∈ (cs ++ d).head?, Text.isBlank x = false := by
  obtain ⟨x, more, rfl, hx, -⟩ := h.head
  intro y hy
  cases hy
  exact hx

theorem head_ne (h : Starts cs) (hx : x = ')' ∨ x = ']' ∨ x = '!') (d : List Char) :
    (cs ++ d).head? ≠ some x := by
  obtain ⟨y, more, rfl, -, hp, hb, hn, -⟩ := h.head
  intro hy
  cases hy
  rcases hx with h | h | h
  · exact hp h
  · exact hb h
  · exact hn h

/-- An expression in front of a comma or a parenthesis is no named argument. -/
theorem startsNamed (h : Starts cs) (hx : x = ',' ∨ x = ')') (d : List Char) (offset : Nat) :
    startsNamed ⟨cs ++ x :: d, offset⟩ = false := by
  cases h with
  | @name s hs more hm =>
    have hy : ∃ z tail, more ++ x :: d = z :: tail ∧
        (z = '(' ∨ z = '.' ∨ z = ':' ∨ z = ',' ∨ z = ')') := by
      cases more with
      | nil => exact ⟨x, d, rfl, .inr (.inr (.inr hx))⟩
      | cons z more =>
        refine ⟨z, more ++ x :: d, rfl, ?_⟩
        rcases hm z rfl with h | h | h <;> simp [h]
    obtain ⟨z, tail, ht, hz⟩ := hy
    have hc : continuesName z = false ∧ Text.isBlank z = false ∧ (z == '=') = false := by
      rcases hz with rfl | rfl | rfl | rfl | rfl <;> decide
    rw [List.append_assoc, ht, startsNamed_name hs hc.1 hc.2.1, hc.2.2]
    rfl
  | @sign y hy more =>
    have hn : startsName y = false := by
      simp only [opensExpression, Bool.or_eq_true, beq_iff_eq] at hy
      rcases hy with ((rfl | rfl) | rfl) | rfl <;> decide
    simp [Reader.startsNamed, hn]

end Starts

/-! ## What stands behind expressions -/

/-- Text that neither goes on with a name nor passes arguments. -/
def Apart (d : List Char) : Prop := ∀ x ∈ d.head?, continuesName x = false ∧ x ≠ '('

/-- Text that goes on neither with a property nor, where maps take turns, with a template. -/
structure EndsMember (alone : Bool) (d : List Char) : Prop where
  apart : Apart d
  no_dot : d.head? ≠ some '.'
  no_comma : alone = true → (d.dropWhile Text.isBlank).head? ≠ some ','

/-- Text that goes on with no map either. -/
structure EndsExpression (alone : Bool) (d : List Char) : Prop extends EndsMember alone d where
  no_colon : (d.dropWhile Text.isBlank).head? ≠ some ':'

theorem Apart.of_sign (hx : continuesName x = false ∧ x ≠ '(') (d : List Char) : Apart (x :: d) :=
  fun y hy => by cases hy; exact hx

theorem EndsMember.colon (alone : Bool) (d : List Char) : EndsMember alone (':' :: d) where
  apart := .of_sign (by decide) d
  no_dot := by simp
  no_comma _ := by rw [dropWhile_isBlank fun y hy => by cases hy; decide]; simp

theorem EndsExpression.of_sign (alone : Bool) (hx : x = ')' ∨ x = ']' ∨ x = '>' ∨ x = ';') (d : List Char) :
    EndsExpression alone (x :: d) := by
  have hb : (x :: d).dropWhile Text.isBlank = x :: d :=
    dropWhile_isBlank fun y hy => by cases hy; rcases hx with rfl | rfl | rfl | rfl <;> decide
  refine ⟨⟨.of_sign ?_ d, ?_, fun _ => ?_⟩, ?_⟩
  all_goals first | rw [hb] | skip
  all_goals rcases hx with rfl | rfl | rfl | rfl <;> simp <;> decide

theorem EndsExpression.comma (d : List Char) : EndsExpression false (',' :: d) where
  apart := .of_sign (by decide) d
  no_dot := by simp
  no_comma h := by cases h
  no_colon := by rw [dropWhile_isBlank fun y hy => by cases hy; decide]; simp

theorem EndsExpression.nil (alone : Bool) : EndsExpression alone [] where
  apart := nofun
  no_dot := nofun
  no_comma _ := nofun
  no_colon := nofun

/-! ## Text that spells expressions -/

/-- Text that is read as a primary expression. -/
def SpellsPrimary (cs : List Char) (e : Expr) : Prop :=
  ∀ ⦃d : List Char⦄ (n : Nat), 16 * cs.length ≤ n + 2 → Apart d → (d.head? = some '.' → e.IsTarget) →
    Takes (primary n) (cs ++ d) d (·.unplaced = e.unplaced)

/-- Text that is read as an expression with its properties, from which reading may go on with more. -/
def SpellsMember (cs : List Char) (e : Expr) : Prop :=
  ∀ ⦃d d' : List Char⦄ ⦃Q : Expr → Prop⦄ (n start : Nat), 16 * cs.length ≤ n + 2 → Apart d →
    (d.head? = some '.' → e.IsTarget) →
    (∀ m e', n ≤ m + cs.length → e'.unplaced = e.unplaced → Takes (properties m start e') d d' Q) →
    Takes (primary n >>= properties n start) (cs ++ d) d' Q

/-- Text that is read as an expression with its maps, from which reading may go on with more. -/
def SpellsChain (alone : Bool) (cs : List Char) (e : Expr) : Prop :=
  ∀ ⦃d d' : List Char⦄ ⦃Q : Expr → Prop⦄ (n start : Nat), 16 * cs.length ≤ n + 1 → EndsMember alone d →
    (∀ m e', n ≤ m + cs.length → e'.unplaced = e.unplaced → Takes (maps m alone start e') d d' Q) →
    Takes (member n >>= maps n alone start) (cs ++ d) d' Q

/-- Text that is read as an expression. -/
def Spells (alone : Bool) (cs : List Char) (e : Expr) : Prop :=
  ∀ ⦃d : List Char⦄ (n : Nat), 16 * cs.length ≤ n → EndsExpression alone d →
    Takes (expression n alone) (cs ++ d) d (·.unplaced = e.unplaced)

/-- Text that is read as a template to map. -/
def SpellsTemplate (cs : List Char) (e : Expr) : Prop :=
  ∀ ⦃d : List Char⦄ (n : Nat), 16 * cs.length ≤ n → Takes (mapTarget n) (cs ++ d) d (·.unplaced = e.unplaced)

variable {alone : Bool} {e : Expr}

theorem SpellsPrimary.member (h : SpellsPrimary cs e) : SpellsMember cs e :=
  fun _ _ _ n _ hn ha ht hgo => (h n hn ha ht).bind fun e' he => hgo n e' (Nat.le_add_right _ _) he

theorem isPropertyName_head {s : String} (hs : isPropertyName s = true) :
    ∃ x rest, s.toList = x :: rest ∧ continuesName x = true := by
  rcases Bool.or_eq_true_iff.mp hs with hn | hdigits
  · obtain ⟨x, rest, hl, hx, -⟩ := isName_iff.mp hn
    exact ⟨x, rest, hl, continuesName_of_startsName hx⟩
  · split at hdigits
    · cases hdigits
    · rename_i x rest hl
      rw [List.all_cons, Bool.and_eq_true] at hdigits
      exact ⟨x, rest, hl, by simp [continuesName, Char.isAlphanum, hdigits.1]⟩

theorem SpellsMember.property (h : SpellsMember cs e) (ht : e.IsTarget) {s : String}
    (hs : isPropertyName s = true) (span : Span) :
    SpellsMember (cs ++ '.' :: s.toList) (.property e s span) := by
  intro d d' Q n start hn ha _ hgo
  rw [List.length_append, List.length_cons] at hn hgo
  rw [List.append_assoc]
  refine h n start (by omega) (.of_sign (by decide) _) (fun _ => ht) fun m e' hm he => ?_
  obtain ⟨m, rfl⟩ : ∃ k, m = k + 1 := ⟨m - 1, by omega⟩
  have hsign : (s.toList ++ d).head? ≠ some '(' := by
    obtain ⟨x, rest, hl, hx⟩ := isPropertyName_head hs
    rw [hl]
    rintro ⟨⟩
    exact absurd hx (by decide)
  rw [properties, List.cons_append]
  refine (accept_next rfl).bind_eq (.startsWith_other rfl hsign ?_)
  refine (propertyName_takes hs fun x hx => (ha x hx).1).bind_eq ?_
  exact .offset_bind fun stop => hgo m _ (by omega) (by rw [Expr.unplaced, he, Expr.unplaced])

/-- What stands in parentheses, the closing one included. -/
theorem parenthesized_takes (h : Spells true cs e) (hcs : Starts cs) {n : Nat} (hn : 16 * cs.length < n) :
    Takes (parenthesized n) (Print.parentheses cs ++ d) d (·.unplaced = e.unplaced) := by
  obtain ⟨n, rfl⟩ : ∃ k, n = k + 1 := ⟨n - 1, by omega⟩
  rw [parenthesized, Print.parentheses_append]
  refine (expect_next rfl).bind fun _ _ => (blanks_none (hcs.not_blank _)).bind fun _ _ => ?_
  refine (h n (by omega) (.of_sign true (.inl rfl) d)).bind fun e' he => ?_
  refine (blanks_none fun y hy => by cases hy; decide).bind fun _ _ => ?_
  exact (expect_next rfl).bind fun _ _ => .pure he

theorem SpellsMember.propertyAt (h : SpellsMember cs e) (ht : e.IsTarget) {key : Expr} {ks : List Char}
    (hk : Spells true ks key) (hks : Starts ks) (span : Span) :
    SpellsMember (cs ++ '.' :: Print.parentheses ks) (.propertyAt e key span) := by
  intro d d' Q n start hn ha _ hgo
  rw [List.length_append, List.length_cons, Print.length_parentheses] at hn hgo
  rw [List.append_assoc]
  refine h n start (by omega) (.of_sign (by decide) _) (fun _ => ht) fun m e' hm he => ?_
  obtain ⟨m, rfl⟩ : ∃ k, m = k + 1 := ⟨m - 1, by omega⟩
  rw [properties, List.cons_append]
  refine (accept_next rfl).bind_eq ?_
  rw [Print.parentheses_append]
  refine .startsWith_next rfl ?_
  rw [← Print.parentheses_append]
  refine (parenthesized_takes hk hks (by omega)).bind fun key' hkey => ?_
  exact .offset_bind fun stop => hgo m _ (by omega) (by rw [Expr.unplaced, he, hkey, Expr.unplaced])

theorem SpellsMember.chain (h : SpellsMember cs e) (hcs : Starts cs) : SpellsChain alone cs e := by
  intro d d' Q n start hn hd hgo
  have hcs := hcs.length_pos
  obtain ⟨n, rfl⟩ : ∃ k, n = k + 1 := ⟨n - 1, by omega⟩
  rw [member]
  refine .bind (P := (·.unplaced = e.unplaced)) (.offset_bind fun begin => h n begin (by omega) hd.apart
    (fun hdot => absurd hdot hd.no_dot) fun m e' hm he => ?_) fun e' he => hgo _ e' (by omega) he
  obtain ⟨m, rfl⟩ : ∃ k, m = k + 1 := ⟨m - 1, by omega⟩
  rw [properties]
  exact (accept_refuses (isPrefixOf_head rfl hd.no_dot)).bind_eq (.pure he)

theorem SpellsChain.spells (h : SpellsChain alone cs e) (hcs : Starts cs) : Spells alone cs e := by
  intro d n hn hd
  have hcs := hcs.length_pos
  obtain ⟨n, rfl⟩ : ∃ k, n = k + 1 := ⟨n - 1, by omega⟩
  rw [expression]
  refine .offset_bind fun start => h n start (by omega) hd.toEndsMember fun m e' hm he => ?_
  obtain ⟨m, rfl⟩ : ∃ k, m = k + 1 := ⟨m - 1, by omega⟩
  rw [maps]
  exact (operator_refuses (isPrefixOf_head rfl hd.no_colon)).bind_eq (.pure he)

end Stencil.Reader
