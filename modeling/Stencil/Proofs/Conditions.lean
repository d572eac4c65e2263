import Stencil.Proofs.Primaries
/-! Conditions are read as they are printed. A parenthesis may hold a condition or belong to an
expression, and only what stands behind it tells which. -/

namespace Stencil

namespace Reader

variable {c d cs bs : List Char} {n : Nat} {alone : Bool} {e : Expr} {t u : Condition}

/-! ## Parentheses -/

/-- A condition in parentheses, unless what follows shows that they belong to an expression. -/
def grouped (n : Nat) : Reader Condition := do
  expect "("
  blanks
  let inner ← condition n
  blanks
  expect ")"
  let c ← get
  if c.startsWith "(" || c.startsWith "." || c.startsWith ":" then fail .expectedExpression
  return inner

theorem negation_succ (n : Nat) : negation (n + 1) = (do
    if ← accept "!" then
      blanks
      return .not (← negation n)
    if ← startsWith "(" then
      if let some inner := (← optional (grouped n)) then return inner
    return .value (← expression n true)) := by
  rw [negation]
  rfl

/-- Text with a first character that is not blank. -/
def Opens (cs : List Char) : Prop := ∃ x more, cs = x :: more ∧ Text.isBlank x = false

theorem Opens.not_blank (h : Opens cs) (d : List Char) : ∀ x ∈ (cs ++ d).head?, Text.isBlank x = false := by
  obtain ⟨x, more, rfl, hx⟩ := h
  intro y hy
  cases hy
  exact hx

theorem Opens.parentheses (cs : List Char) : Opens (Print.parentheses cs) := ⟨'(', _, rfl, by decide⟩

theorem Opens.append (h : Opens cs) (d : List Char) : Opens (cs ++ d) := by
  obtain ⟨x, more, rfl, hx⟩ := h
  exact ⟨x, more ++ d, rfl, hx⟩

theorem Starts.opens (h : Starts cs) : Opens cs := by
  obtain ⟨x, more, rfl, hx, -⟩ := h.head
  exact ⟨x, more, rfl, hx⟩

/-- Signs that make parentheses in front of them a part of an expression. -/
def Joins (x : Char) : Prop := x = '(' ∨ x = '.' ∨ x = ':'

theorem grouped_takes {P : Condition → Prop} (h : Takes (condition n) (cs ++ ')' :: d) (')' :: d) P)
    (hcs : Opens cs) (hd : ∀ x ∈ d.head?, ¬ Joins x) : Takes (grouped n) (Print.parentheses cs ++ d) d P := by
  rw [grouped, Print.parentheses_append]
  refine (expect_next rfl).bind fun _ _ => (blanks_none (hcs.not_blank _)).bind fun _ _ => h.bind fun t ht => ?_
  refine (blanks_none fun x hx => by cases hx; rfl).bind fun _ _ => (expect_next rfl).bind fun _ _ => ?_
  refine .get_bind fun offset => ?_
  have hne (x : Char) (hx : Joins x) : d.head? ≠ some x := fun h => hd x h hx
  simp only [Cursor.startsWith, isPrefixOf_head (t := "(") rfl (hne '(' (.inl rfl)),
    isPrefixOf_head (t := ".") rfl (hne '.' (.inr (.inl rfl))),
    isPrefixOf_head (t := ":") rfl (hne ':' (.inr (.inr rfl)))]
  exact .pure ht

theorem grouped_fails {x : Char} (h : Takes (condition n) (cs ++ ')' :: x :: d) (')' :: x :: d) fun _ => True)
    (hcs : Opens cs) (hx : Joins x) : Fails (grouped n) (Print.parentheses cs ++ x :: d) := by
  rw [grouped, Print.parentheses_append]
  refine .bind (expect_next rfl) fun _ _ => .bind (blanks_none (hcs.not_blank _)) fun _ _ => .bind h fun t _ => ?_
  refine .bind (blanks_none fun x hx => by cases hx; rfl) fun _ _ => .bind (expect_next rfl) fun _ _ => ?_
  intro offset
  rcases hx with rfl | rfl | rfl <;> exact ⟨_, rfl⟩

/-- Where no parenthesis opens, no condition in parentheses is read. -/
theorem grouped_fails_elsewhere (hc : c.head? ≠ some '(') : Fails (grouped n) c :=
  (expect_fails (isPrefixOf_head rfl hc)).first

/-! ## Operands -/

/-- Text behind an operand of a condition: the parenthesis that closes it, or an operator. -/
inductive EndsTest : List Char → Prop where
  | close (d : List Char) : EndsTest (')' :: d)
  | and (d : List Char) : EndsTest (' ' :: '&' :: '&' :: ' ' :: d)
  | or (d : List Char) : EndsTest (' ' :: '|' :: '|' :: ' ' :: d)

theorem EndsTest.expression (h : EndsTest d) : EndsExpression true d := by
  cases h with
  | close d => exact .of_sign true (.inl rfl) d
  | and d => exact ⟨⟨.of_sign (by decide) _, by simp, fun _ => nofun⟩, nofun⟩
  | or d => exact ⟨⟨.of_sign (by decide) _, by simp, fun _ => nofun⟩, nofun⟩

theorem EndsTest.not_joins (h : EndsTest d) : ∀ x ∈ d.head?, ¬ Joins x := by
  cases h with
  | close d => exact fun x hx => by cases hx; unfold Joins; decide
  | and d => exact fun x hx => by cases hx; unfold Joins; decide
  | or d => exact fun x hx => by cases hx; unfold Joins; decide

/-- Text that is read as an operand of `&&`. -/
def SpellsNegation (cs : List Char) (t : Condition) : Prop :=
  ∀ ⦃d : List Char⦄ (n : Nat), 16 * cs.length + 2 ≤ n → EndsTest d →
    Takes (negation n) (cs ++ d) d (·.unplaced = t.unplaced)

/-- Text that is read as a chain of `&&`, from which reading may go on with more. -/
def SpellsConjunction (cs : List Char) (t : Condition) : Prop :=
  ∀ ⦃d d' : List Char⦄ ⦃Q : Condition → Prop⦄ (n : Nat), 16 * cs.length + 2 ≤ n → EndsTest d →
    (∀ m t', n ≤ m + cs.length → t'.unplaced = t.unplaced → Takes (conjuncts m t') d d' Q) →
    Takes (negation n >>= conjuncts n) (cs ++ d) d' Q

/-- Whether a chain of `&&` ends. -/
def EndsConjunction (d : List Char) : Prop := "&&".toList.isPrefixOf (d.dropWhile Text.isBlank) = false

/-- Text that is read as a chain of `||`, from which reading may go on with more. -/
def SpellsCondition (cs : List Char) (t : Condition) : Prop :=
  ∀ ⦃d d' : List Char⦄ ⦃Q : Condition → Prop⦄ (n : Nat), 16 * cs.length + 3 ≤ n → EndsTest d →
    EndsConjunction d →
    (∀ m t', n ≤ m + cs.length → t'.unplaced = t.unplaced → Takes (disjuncts m t') d d' Q) →
    Takes (conjunction n >>= disjuncts n) (cs ++ d) d' Q

theorem EndsConjunction.close (d : List Char) : EndsConjunction (')' :: d) := rfl

theorem EndsConjunction.or (d : List Char) : EndsConjunction (' ' :: '|' :: '|' :: ' ' :: d) := rfl

theorem negation_grouped {P : Condition → Prop} (h : Takes (condition n) (cs ++ ')' :: d) (')' :: d) P)
    (hcs : Opens cs) (hd : EndsTest d) : Takes (negation (n + 1)) (Print.parentheses cs ++ d) d P := by
  have hread := grouped_takes h hcs hd.not_joins
  rw [negation_succ]
  rw [Print.parentheses_append] at hread ⊢
  refine (accept_refuses (isPrefixOf_head (x := '!') rfl (by simp))).bind_eq (.startsWith_next rfl ?_)
  refine (optional_takes hread).bind fun o ⟨t, ho, ht⟩ => ?_
  subst ho
  exact .pure ht

/-- Where no condition in parentheses is read, a test is an expression. -/
theorem negation_value (hg : Fails (grouped n) (cs ++ d)) (hcs : Starts cs) (h : Spells true cs e)
    (hn : 16 * cs.length ≤ n) (hd : EndsTest d) :
    Takes (negation (n + 1)) (cs ++ d) d (·.unplaced = (Condition.value e).unplaced) := by
  have hvalue : Takes (Condition.value <$> expression n true) (cs ++ d) d
      (·.unplaced = (Condition.value e).unplaced) :=
    (h n hn hd.expression).map fun e' he => by rw [Condition.unplaced, he, Condition.unplaced]
  rw [negation_succ]
  refine (accept_refuses (isPrefixOf_head rfl (hcs.head_ne (.inr (.inr rfl)) d))).bind_eq ?_
  refine .startsWith_bind ?_
  split
  · exact (optional_none hg).bind_eq hvalue
  · exact hvalue

theorem SpellsNegation.not (h : SpellsNegation cs t) (hcs : Opens cs) : SpellsNegation ('!' :: cs) (.not t) := by
  intro d n hn hd
  rw [List.length_cons] at hn
  obtain ⟨n, rfl⟩ : ∃ k, n = k + 1 := ⟨n - 1, by omega⟩
  rw [negation_succ, List.cons_append]
  refine (accept_next rfl).bind_eq ((blanks_none (hcs.not_blank _)).bind fun _ _ => ?_)
  exact (h n (by omega) hd).bind fun t' ht => .pure (by rw [Condition.unplaced, ht, Condition.unplaced])

/-! ## Chains of operators -/

/-- An operator between blanks, in front of what is not blank. -/
theorem operator_between {token : String} {x : Char} (ht : token.toList = [x, x]) (hx : Text.isBlank x = false)
    (hc : ∀ y ∈ c.head?, Text.isBlank y = false) :
    Takes (operator token) (' ' :: x :: x :: ' ' :: c) c (· = true) := by
  have hd : (' ' :: x :: x :: ' ' :: c).dropWhile Text.isBlank = [x, x] ++ ' ' :: c := by
    rw [List.dropWhile_cons_of_pos (by decide), List.dropWhile_cons_of_neg (by simp [hx])]
    rfl
  have h := operator_takes ht hd
  rwa [List.dropWhile_cons_of_pos (by decide), dropWhile_isBlank hc] at h

theorem SpellsNegation.conjunction (h : SpellsNegation cs t) : SpellsConjunction cs t :=
  fun _ _ _ n hn hd hgo => (h n hn hd).bind fun t' ht => hgo n t' (Nat.le_add_right _ _) ht

theorem SpellsConjunction.and (h : SpellsConjunction cs t) (hu : SpellsNegation bs u) (hbs : Opens bs) :
    SpellsConjunction (cs ++ ' ' :: '&' :: '&' :: ' ' :: bs) (.and t u) := by
  intro d d' Q n hn hd hgo
  simp only [List.length_append, List.length_cons] at hn hgo
  rw [List.append_assoc]
  refine h n (by omega) (.and _) fun m t' hm ht => ?_
  obtain ⟨m, rfl⟩ : ∃ k, m = k + 1 := ⟨m - 1, by omega⟩
  rw [conjuncts]
  refine (operator_between rfl (by decide) (hbs.not_blank d)).bind_eq ?_
  exact (hu m (by omega) hd).bind fun u' hu =>
    hgo m _ (by omega) (by rw [Condition.unplaced, ht, hu, Condition.unplaced])

/-- A chain of `&&` up to its end. -/
theorem SpellsConjunction.takes (h : SpellsConjunction cs t) (hn : 16 * cs.length + 3 ≤ n) (hd : EndsTest d)
    (hand : EndsConjunction d) : Takes (conjunction n) (cs ++ d) d (·.unplaced = t.unplaced) := by
  obtain ⟨n, rfl⟩ : ∃ k, n = k + 1 := ⟨n - 1, by omega⟩
  rw [Reader.conjunction]
  refine h n (by omega) hd fun m t' hm ht => ?_
  obtain ⟨m, rfl⟩ : ∃ k, m = k + 1 := ⟨m - 1, by omega⟩
  rw [conjuncts]
  exact (operator_refuses hand).bind_eq (.pure ht)

theorem SpellsConjunction.condition (h : SpellsConjunction cs t) : SpellsCondition cs t :=
  fun _ _ _ n hn hd hand hgo => (h.takes hn hd hand).bind fun t' ht => hgo n t' (Nat.le_add_right _ _) ht

theorem SpellsCondition.or (h : SpellsCondition cs t) (hu : SpellsConjunction bs u) (hbs : Opens bs) :
    SpellsCondition (cs ++ ' ' :: '|' :: '|' :: ' ' :: bs) (.or t u) := by
  intro d d' Q n hn hd hand hgo
  simp only [List.length_append, List.length_cons] at hn hgo
  rw [List.append_assoc]
  refine h n (by omega) (.or _) (.or _) fun m t' hm ht => ?_
  obtain ⟨m, rfl⟩ : ∃ k, m = k + 1 := ⟨m - 1, by omega⟩
  rw [disjuncts]
  refine (operator_between rfl (by decide) (hbs.not_blank d)).bind_eq ?_
  exact (hu.takes (by omega) hd hand).bind fun u' hu =>
    hgo m _ (by omega) (by rw [Condition.unplaced, ht, hu, Condition.unplaced])

/-- A condition up to the parenthesis behind it. -/
theorem SpellsCondition.takes (h : SpellsCondition cs t) (hn : 16 * cs.length + 4 ≤ n) :
    Takes (condition n) (cs ++ ')' :: d) (')' :: d) (·.unplaced = t.unplaced) := by
  obtain ⟨n, rfl⟩ : ∃ k, n = k + 1 := ⟨n - 1, by omega⟩
  rw [Reader.condition]
  refine h n (by omega) (.close d) (.close d) fun m t' hm ht => ?_
  obtain ⟨m, rfl⟩ : ∃ k, m = k + 1 := ⟨m - 1, by omega⟩
  rw [disjuncts]
  exact (operator_refuses rfl).bind_eq (.pure ht)

theorem SpellsCondition.parentheses (h : SpellsCondition cs t) (hcs : Opens cs) :
    SpellsNegation (Print.parentheses cs) t := by
  intro d n hn hd
  rw [Print.length_parentheses] at hn
  obtain ⟨n, rfl⟩ : ∃ k, n = k + 1 := ⟨n - 1, by omega⟩
  exact negation_grouped (h.takes (by omega)) hcs hd

/-- Any test that stands alone is a condition. -/
theorem condition_takes {P : Condition → Prop} (h : Takes (negation n) c (')' :: d) P) (hn : 1 ≤ n) :
    Takes (condition (n + 2)) c (')' :: d) P := by
  obtain ⟨n, rfl⟩ : ∃ k, n = k + 1 := ⟨n - 1, by omega⟩
  rw [condition, Reader.conjunction]
  refine .bind (P := P) (d := ')' :: d) (h.bind fun t ht => ?_) fun t ht => ?_
  · rw [conjuncts]
    exact (operator_refuses rfl).bind_eq (.pure ht)
  · rw [disjuncts]
    exact (operator_refuses rfl).bind_eq (.pure ht)

/-! ## Expressions and conditions that are read as they are printed -/

end Reader

open Reader

/-- An expression that is read as it is printed, also where parentheses around it could hold a condition. -/
structure Expr.Reads (alone : Bool) (e : Expr) : Prop where
  starts : Starts e.print
  chain : SpellsChain alone e.print e
  member : e.IsTarget → SpellsMember e.print e
  /-- Parentheses that the expression starts with are not taken for those of a condition. -/
  ungrouped {n : Nat} {d : List Char} (hn : 16 * e.print.length ≤ n)
    (hd : e.IsRendered → ∃ x ∈ d.head?, Joins x) : Fails (grouped n) (e.print ++ d)
  /-- As a condition, the expression is read to its end. -/
  tested (h : alone = true) {n : Nat} {d : List Char} (hn : 16 * e.print.length + 4 ≤ n) :
    Takes (condition n) (e.print ++ ')' :: d) (')' :: d) fun _ => True

namespace Expr.Reads

variable {alone : Bool} {e : Expr}

theorem spells (h : e.Reads alone) : Spells alone e.print e := h.chain.spells h.starts

/-- Expressions without parentheses around the whole of them. -/
theorem ofChain (hs : Starts e.print) (hc : SpellsChain alone e.print e)
    (hm : e.IsTarget → SpellsMember e.print e)
    (hu : ∀ {n : Nat} (d : List Char), 16 * e.print.length ≤ n → Fails (grouped n) (e.print ++ d)) :
    e.Reads alone where
  starts := hs
  chain := hc
  member := hm
  ungrouped hn _ := hu _ hn
  tested ha n d hn := by
    subst ha
    obtain ⟨n, rfl⟩ : ∃ k, n = k + 3 := ⟨n - 3, by omega⟩
    refine condition_takes (n := n + 1) ?_ (by omega)
    exact (negation_value (hu _ (by omega)) hs (hc.spells hs) (by omega) (.close d)).mono fun _ _ => trivial

/-- Expressions that do not start with a parenthesis. -/
theorem ofMember (hs : Starts e.print) (hm : SpellsMember e.print e)
    (hp : ∀ d, (e.print ++ d).head? ≠ some '(') : e.Reads alone :=
  ofChain hs (hm.chain hs) (fun _ => hm) fun d _ => grouped_fails_elsewhere (hp d)

theorem sign {x : Char} (hx : opensExpression x = true) (hp : x ≠ '(') {more : List Char}
    (he : e.print = x :: more) (h : SpellsPrimary e.print e) : e.Reads alone :=
  ofMember (he ▸ .sign hx more) h.member fun d => by simp [he, hp]

theorem name {s : String} (hs : isName s = true) (more : List Char)
    (hm : ∀ x ∈ more.head?, x = '(' ∨ x = '.' ∨ x = ':') (he : e.print = s.toList ++ more)
    (h : SpellsPrimary e.print e) : e.Reads alone :=
  ofMember (he ▸ .name hs hm) h.member fun d => by
    obtain ⟨x, rest, hl, hx, -⟩ := isName_iff.mp hs
    rw [he, hl]
    rintro ⟨⟩
    exact absurd hx (by decide)

theorem property (h : e.Reads alone) (ht : e.IsTarget) {s : String} (hs : isPropertyName s = true) (span : Span) :
    (Expr.property e s span).Reads alone := by
  have hm := (h.member ht).property ht hs span
  have hstarts := h.starts.append (.inl rfl) s.toList
  refine ofChain hstarts (hm.chain hstarts) (fun _ => hm) fun d hn => ?_
  rw [Expr.print, List.length_append] at hn
  rw [Expr.print, List.append_assoc]
  exact h.ungrouped (by omega) fun _ => ⟨'.', rfl, .inr (.inl rfl)⟩

theorem propertyAt (h : e.Reads alone) (ht : e.IsTarget) {key : Expr} (hk : key.Reads true) (span : Span) :
    (Expr.propertyAt e key span).Reads alone := by
  have hm := (h.member ht).propertyAt ht hk.spells hk.starts span
  have hstarts := h.starts.append (.inl rfl) (Print.parentheses key.print)
  refine ofChain hstarts (hm.chain hstarts) (fun _ => hm) fun d hn => ?_
  rw [Expr.print, List.length_append] at hn
  rw [Expr.print, List.append_assoc]
  exact h.ungrouped (by omega) fun _ => ⟨'.', rfl, .inr (.inl rfl)⟩

theorem map (h : e.Reads alone) {ts : List Expr} (hts : ReadsTemplates ts) (hne : ts ≠ [])
    (hone : alone = false → ts.length = 1) (span : Span) : (Expr.map e ts span).Reads alone := by
  have hc := h.chain.map hts hne hone span
  refine ofChain (h.starts.append (.inr rfl) _) hc nofun fun d hn => ?_
  rw [Expr.print, List.length_append] at hn
  rw [Expr.print, List.append_assoc]
  exact h.ungrouped (by omega) fun _ => ⟨':', rfl, .inr (.inr rfl)⟩

theorem callComputed (h : e.Reads true) {a : Arguments} (ha : SpellsArguments a) (span : Span) :
    (Expr.callComputed e a span).Reads alone := by
  have hm := (SpellsPrimary.callComputed h.spells h.starts ha span).member
  have hstarts : Starts (Expr.callComputed e a span).print := .sign rfl _
  refine ofChain hstarts (hm.chain hstarts) (fun _ => hm) fun d hn => ?_
  obtain ⟨as, has⟩ := Arguments.print_eq a
  rw [Expr.print, List.length_append, Print.length_parentheses] at hn
  rw [Expr.print, List.append_assoc, has, Print.parentheses_append as]
  exact grouped_fails (h.tested rfl (by omega)) h.starts.opens (.inl rfl)

/-- Parentheses alone are an expression, but as a condition they are read as a condition in parentheses. -/
theorem rendered (h : e.Reads true) (span : Span) : (Expr.rendered e span).Reads alone := by
  have hm := (SpellsPrimary.rendered h.spells h.starts span).member
  have hstarts : Starts (Expr.rendered e span).print := .sign rfl _
  refine ⟨hstarts, hm.chain hstarts, fun _ => hm, fun {n d} hn hd => ?_, fun _ n d hn => ?_⟩
  · obtain ⟨x, hx, hj⟩ := hd trivial
    cases d with
    | nil => cases hx
    | cons y d =>
      cases hx
      rw [Expr.print, Print.length_parentheses] at hn
      exact grouped_fails (h.tested rfl (by omega)) h.starts.opens hj
  · rw [Expr.print, Print.length_parentheses] at hn
    obtain ⟨n, rfl⟩ : ∃ k, n = k + 3 := ⟨n - 3, by omega⟩
    exact condition_takes (negation_grouped (h.tested rfl (by omega)) h.starts.opens (.close d)) (by omega)

end Expr.Reads

/-- A condition that is read as it is printed, in each place that its operator allows. -/
structure Condition.Reads (t : Condition) : Prop where
  opens : Opens t.print
  negation : t.level = .single → SpellsNegation t.print t
  conjunction : t.level ≠ .disjunction → SpellsConjunction t.print t
  condition : SpellsCondition t.print t

namespace Condition.Reads

variable {t u : Condition}

theorem ofNegation (ho : Opens t.print) (h : SpellsNegation t.print t) : t.Reads where
  opens := ho
  negation _ := h
  conjunction _ := h.conjunction
  condition := h.conjunction.condition

/-- What stands behind `!`, and on the right of `&&`. -/
theorem operand (h : t.Reads) :
    SpellsNegation (if t.level = .single then t.print else Print.parentheses t.print) t ∧
      Opens (if t.level = .single then t.print else Print.parentheses t.print) := by
  split
  · rename_i hl
    exact ⟨h.negation hl, h.opens⟩
  · exact ⟨h.condition.parentheses h.opens, .parentheses _⟩

/-- What stands on the left of `&&`, and on the right of `||`. -/
theorem conjunct (h : t.Reads) :
    SpellsConjunction (if t.level = .disjunction then Print.parentheses t.print else t.print) t ∧
      Opens (if t.level = .disjunction then Print.parentheses t.print else t.print) := by
  split
  · exact ⟨(h.condition.parentheses h.opens).conjunction, .parentheses _⟩
  · rename_i hl
    exact ⟨h.conjunction hl, h.opens⟩

theorem value {e : Expr} (h : e.Reads true) (hr : ¬ e.IsRendered) : (Condition.value e).Reads := by
  refine .ofNegation h.starts.opens fun d n hn hd => ?_
  obtain ⟨n, rfl⟩ : ∃ k, n = k + 1 := ⟨n - 1, by omega⟩
  rw [Condition.print] at hn ⊢
  exact negation_value (h.ungrouped (by omega) fun hx => absurd hx hr) h.starts h.spells (by omega) hd

theorem not (h : t.Reads) : (Condition.not t).Reads :=
  .ofNegation ⟨'!', _, rfl, by decide⟩ (h.operand.1.not h.operand.2)

theorem and (h : t.Reads) (hu : u.Reads) : (Condition.and t u).Reads := by
  have hc := h.conjunct.1.and hu.operand.1 hu.operand.2
  exact ⟨h.conjunct.2.append _, nofun, fun _ => hc, hc.condition⟩

theorem or (h : t.Reads) (hu : u.Reads) : (Condition.or t u).Reads :=
  ⟨h.opens.append _, nofun, fun hl => absurd rfl hl, h.condition.or hu.conjunct.1 hu.conjunct.2⟩

end Condition.Reads

end Stencil
