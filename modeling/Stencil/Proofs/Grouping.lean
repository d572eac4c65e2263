import Stencil.Proofs.Conditions
import Stencil.Proofs.Places
/-! Parentheses in conditions. What stands in parentheses may be read as a condition and as an expression, and where
both can be read, they end at the same place. -/

namespace Stencil

namespace Reader

/-! ## Blanks and operators -/

theorem blanks_ok {c d : Cursor} (h : blanks c = .ok ((), d)) : d.rest = c.rest.dropWhile Text.isBlank := by
  cases h
  rfl

theorem operator_ok {token : String} {c d : Cursor} {found : Bool} (h : operator token c = .ok (found, d)) :
    (found = true ∧ token.toList.isPrefixOf (c.rest.dropWhile Text.isBlank) = true) ∨ (found = false ∧ d = c) := by
  obtain ⟨o, e, ho, h⟩ := bind_ok h
  cases h
  rw [optional] at ho
  cases hx : (do blanks; expect token; blanks : Reader Unit) c with
  | error f =>
    rw [hx] at ho
    cases ho
    exact .inr ⟨rfl, rfl⟩
  | ok p =>
    rw [hx] at ho
    cases ho
    obtain ⟨_, c₁, hb, hx⟩ := bind_ok (d := p.2) (y := p.1) hx
    obtain ⟨_, c₂, ht, -⟩ := bind_ok hx
    refine .inl ⟨rfl, ?_⟩
    rw [← blanks_ok hb, (expect_ok ht).1]
    exact List.isPrefixOf_iff_prefix.mpr (List.prefix_append _ _)

/-! ## Expressions in parentheses -/

/-- Whether nothing but blanks is in front of a closing parenthesis. -/
def Closes (d : List Char) : Prop := (d.dropWhile Text.isBlank).head? = some ')'

theorem primary_opens {n : Nat} {c d : Cursor} {e : Expr} (h : primary n c = .ok (e, d)) :
    ∃ x, c.rest.head? = some x ∧ (opensExpression x = true ∨ startsName x = true) := by
  cases n with
  | zero => rw [primary] at h; cases h
  | succ n =>
    rw [primary] at h
    obtain ⟨_, _, hs, h⟩ := bind_ok h
    cases hs
    obtain ⟨o, _, hs, h⟩ := bind_ok h
    cases hs
    generalize c.rest.head? = o at h
    split at h
    · exact ⟨_, rfl, .inl rfl⟩
    · exact ⟨_, rfl, .inl rfl⟩
    · exact ⟨_, rfl, .inl rfl⟩
    · exact ⟨_, rfl, .inl rfl⟩
    · split at h
      · next hx => exact ⟨_, rfl, .inr hx⟩
      · cases h
    · cases h

theorem member_ok {n : Nat} {c d : Cursor} {e : Expr} (h : member n c = .ok (e, d)) :
    ∃ m target c₁, n = m + 1 ∧ primary m c = .ok (target, c₁) ∧ properties m c.offset target c₁ = .ok (e, d) := by
  cases n with
  | zero => rw [member] at h; cases h
  | succ n =>
    rw [member] at h
    obtain ⟨_, _, hs, h⟩ := bind_ok h
    cases hs
    obtain ⟨target, c₁, hp, h⟩ := bind_ok h
    exact ⟨n, target, c₁, rfl, hp, h⟩

theorem expression_ok {n : Nat} {roundRobin : Bool} {c d : Cursor} {e : Expr}
    (h : expression n roundRobin c = .ok (e, d)) : ∃ m target c₁, n = m + 1 ∧ member m c = .ok (target, c₁) ∧
      maps m roundRobin c.offset target c₁ = .ok (e, d) := by
  cases n with
  | zero => rw [expression] at h; cases h
  | succ n =>
    rw [expression] at h
    obtain ⟨_, _, hs, h⟩ := bind_ok h
    cases hs
    obtain ⟨target, c₁, hm, h⟩ := bind_ok h
    exact ⟨n, target, c₁, rfl, hm, h⟩

theorem parenthesized_ok {n : Nat} {c d : Cursor} {e : Expr} (h : parenthesized n c = .ok (e, d)) :
    ∃ m c₀ c₁, n = m + 1 ∧ (do expect "("; blanks) c = .ok ((), c₀) ∧ expression m true c₀ = .ok (e, c₁) ∧
      (do blanks; expect ")") c₁ = .ok ((), d) := by
  cases n with
  | zero => rw [parenthesized] at h; cases h
  | succ n =>
    rw [parenthesized] at h
    obtain ⟨_, c₀', ho, h⟩ := bind_ok h
    obtain ⟨_, c₀, hb, h⟩ := bind_ok h
    obtain ⟨_, c₁, he, h⟩ := bind_ok h
    obtain ⟨_, c₂, hb', h⟩ := bind_ok h
    obtain ⟨_, c₃, hc, h⟩ := bind_ok h
    cases h
    refine ⟨n, c₀, c₁, rfl, ?_, he, ?_⟩
    · rw [bind_apply, ho]
      exact hb
    · rw [bind_apply, hb']
      exact hc

/-- Where no dot is next, nothing is read from what is read. -/
theorem properties_stop {n start : Nat} {target e : Expr} {c d : Cursor} (h : properties n start target c = .ok (e, d))
    (hc : c.startsWith "." = false) : d = c := by
  cases n with
  | zero => rw [properties] at h; cases h
  | succ n =>
    rw [properties] at h
    obtain ⟨found, c₁, ha, h⟩ := bind_ok h
    rw [accept_refused hc] at ha
    cases ha
    cases h
    rfl

theorem maps_stop {n start : Nat} {roundRobin : Bool} {target e : Expr} {c d : Cursor}
    (h : maps n roundRobin start target c = .ok (e, d)) : d = c ∨ (c.rest.dropWhile Text.isBlank).head? = some ':' := by
  cases n with
  | zero => rw [maps] at h; cases h
  | succ n =>
    rw [maps] at h
    obtain ⟨found, c₁, ho, hr⟩ := bind_ok h
    obtain ⟨rfl, hx⟩ | ⟨rfl, rfl⟩ := operator_ok ho
    · exact .inr ((isPrefixOf_singleton ':' _).mp hx)
    · cases hr
      exact .inl rfl

/-- An expression that starts with parentheses reads an expression in them, and goes on behind them only with
what shows that it does. -/
theorem expression_group {n : Nat} {c d : Cursor} {e : Expr} (h : expression n true c = .ok (e, d))
    (hc : c.rest.head? = some '(') : ∃ m c₀ c₁ c₂ inner, n = m + 4 ∧
      (do expect "("; blanks) c = .ok ((), c₀) ∧ expression m true c₀ = .ok (inner, c₁) ∧
      (do blanks; expect ")") c₁ = .ok ((), c₂) ∧ c₂.Forward d ∧
      (c₂.startsWith "(" = false → c₂.startsWith "." = false →
        d = c₂ ∨ (c₂.rest.dropWhile Text.isBlank).head? = some ':') := by
  obtain ⟨n, target, c₄, rfl, hm, hmaps⟩ := expression_ok h
  obtain ⟨n, first, c₃, rfl, hp, hprops⟩ := member_ok hm
  have hforward : c₃.Forward d := ((properties_ahead n _ _).forward hprops).trans ((maps_ahead _ _ _ _).forward hmaps)
  cases n with
  | zero => rw [primary] at hp; cases hp
  | succ n =>
    rw [primary] at hp
    obtain ⟨_, _, hs, hp⟩ := bind_ok hp
    cases hs
    obtain ⟨o, _, hs, hp⟩ := bind_ok hp
    cases hs
    rw [hc] at hp
    obtain ⟨inner, c₂, hpar, hp⟩ := bind_ok hp
    obtain ⟨m, c₀, c₁, rfl, hopen, hinner, hclose⟩ := parenthesized_ok hpar
    refine ⟨m, c₀, c₁, c₂, inner, rfl, hopen, hinner, hclose, ?_⟩
    obtain ⟨opened, _, hs, hp⟩ := bind_ok hp
    cases hs
    split at hp
    · next hx =>
      obtain ⟨_, c₅, ha, hp⟩ := bind_ok hp
      cases hp
      exact ⟨((arguments_ahead _).forward ha).trans hforward, fun h => absurd hx (by rw [h]; nofun)⟩
    · cases hp
      refine ⟨hforward, fun _ hdot => ?_⟩
      obtain rfl := properties_stop hprops hdot
      exact maps_stop hmaps

/-! ## Conditions in parentheses -/

theorem grouped_ok {n : Nat} {c d : Cursor} {t : Condition} (h : grouped n c = .ok (t, d)) :
    ∃ c₀ c₁, (do expect "("; blanks) c = .ok ((), c₀) ∧ condition n c₀ = .ok (t, c₁) ∧
      (do blanks; expect ")") c₁ = .ok ((), d) ∧
      (d.startsWith "(" || d.startsWith "." || d.startsWith ":") = false := by
  obtain ⟨_, c₀', ho, h⟩ := bind_ok h
  obtain ⟨_, c₀, hb, h⟩ := bind_ok h
  obtain ⟨inner, c₁, hi, h⟩ := bind_ok h
  obtain ⟨_, c₂, hb', h⟩ := bind_ok h
  obtain ⟨_, c₃, hc, h⟩ := bind_ok h
  obtain ⟨_, _, hs, h⟩ := bind_ok h
  cases hs
  split at h
  · cases h
  · next hx =>
    cases h
    refine ⟨c₀, c₁, ?_, hi, ?_, Bool.eq_false_iff.mpr hx⟩
    · rw [bind_apply, ho]
      exact hb
    · rw [bind_apply, hb']
      exact hc

/-- A test that is an expression. -/
def plain (n : Nat) : Reader Condition := do return .value (← expression n true)

/-- A test that starts with a parenthesis. -/
def opened (n : Nat) : Reader Condition := do
  match ← optional (grouped n) with
  | some inner => return inner
  | _ => plain n

theorem negation_eq (n : Nat) : negation (n + 1) = (do
    if ← accept "!" then
      blanks
      return .not (← negation n)
    else if ← startsWith "(" then opened n else plain n) := by
  rw [negation_succ]
  rfl

theorem plain_ok {n : Nat} {c d : Cursor} {t : Condition} (h : plain n c = .ok (t, d)) :
    ∃ e, expression n true c = .ok (e, d) ∧ t = .value e := by
  obtain ⟨e, _, he, h⟩ := bind_ok h
  cases h
  exact ⟨e, he, rfl⟩

theorem opened_ok {n : Nat} {c d : Cursor} {t : Condition} (h : opened n c = .ok (t, d)) :
    grouped n c = .ok (t, d) ∨ (∃ f, grouped n c = .error f) ∧ plain n c = .ok (t, d) := by
  obtain ⟨o, e, ho, hr⟩ := bind_ok h
  rw [optional] at ho
  cases hg : grouped n c with
  | error f =>
    rw [hg] at ho
    cases ho
    exact .inr ⟨⟨f, rfl⟩, hr⟩
  | ok p =>
    rw [hg] at ho
    cases ho
    cases hr
    exact .inl rfl

theorem negation_ok {n : Nat} {c d : Cursor} {t : Condition} (h : negation n c = .ok (t, d)) :
    c.rest.head? = some '!' ∨ ∃ m, n = m + 1 ∧
      (c.rest.head? = some '(' ∧ grouped m c = .ok (t, d) ∨ ∃ e, expression m true c = .ok (e, d)) := by
  cases n with
  | zero => rw [negation] at h; cases h
  | succ n =>
    rw [negation_eq] at h
    obtain ⟨found, c₁, ha, hr⟩ := bind_ok h
    obtain ⟨rfl, hs, -⟩ | ⟨rfl, rfl, -⟩ := accept_ok ha
    · exact .inl (by rw [hs]; rfl)
    refine .inr ⟨n, rfl, ?_⟩
    obtain ⟨open?, _, hs, hr⟩ := bind_ok hr
    cases hs
    split at hr
    · next hx =>
      obtain hg | ⟨-, hp⟩ := opened_ok hr
      · exact .inl ⟨(isPrefixOf_singleton '(' _).mp hx, hg⟩
      · obtain ⟨e, he, -⟩ := plain_ok hp
        exact .inr ⟨e, he⟩
    · obtain ⟨e, he, -⟩ := plain_ok hr
      exact .inr ⟨e, he⟩

/-- A chain of operands goes on only with an operator. -/
theorem conjuncts_stop {n : Nat} {left t : Condition} {c d : Cursor} (h : conjuncts n left c = .ok (t, d)) :
    d = c ∨ (c.rest.dropWhile Text.isBlank).head? = some '&' := by
  cases n with
  | zero => rw [conjuncts] at h; cases h
  | succ n =>
    rw [conjuncts] at h
    obtain ⟨found, c₁, ho, hr⟩ := bind_ok h
    obtain ⟨rfl, hx⟩ | ⟨rfl, rfl⟩ := operator_ok ho
    · obtain ⟨y, hy⟩ := List.isPrefixOf_iff_prefix.mp hx
      exact .inr (by rw [← hy]; rfl)
    · cases hr
      exact .inl rfl

theorem disjuncts_stop {n : Nat} {left t : Condition} {c d : Cursor} (h : disjuncts n left c = .ok (t, d)) :
    d = c ∨ (c.rest.dropWhile Text.isBlank).head? = some '|' := by
  cases n with
  | zero => rw [disjuncts] at h; cases h
  | succ n =>
    rw [disjuncts] at h
    obtain ⟨found, c₁, ho, hr⟩ := bind_ok h
    obtain ⟨rfl, hx⟩ | ⟨rfl, rfl⟩ := operator_ok ho
    · obtain ⟨y, hy⟩ := List.isPrefixOf_iff_prefix.mp hx
      exact .inr (by rw [← hy]; rfl)
    · cases hr
      exact .inl rfl

theorem condition_ok {n : Nat} {c d : Cursor} {t : Condition} (h : condition n c = .ok (t, d)) :
    ∃ m t' c', n = m + 2 ∧ negation m c = .ok (t', c') ∧
      (d = c' ∨ (c'.rest.dropWhile Text.isBlank).head? = some '&' ∨
        (c'.rest.dropWhile Text.isBlank).head? = some '|') := by
  cases n with
  | zero => rw [condition] at h; cases h
  | succ n =>
    rw [condition] at h
    obtain ⟨t₁, c₁, hconj, hdis⟩ := bind_ok h
    cases n with
    | zero => rw [conjunction] at hconj; cases hconj
    | succ n =>
      rw [conjunction] at hconj
      obtain ⟨t₂, c₂, hneg, hcon⟩ := bind_ok hconj
      refine ⟨n, t₂, c₂, rfl, hneg, ?_⟩
      obtain rfl | hx := conjuncts_stop hcon
      · exact (disjuncts_stop hdis).imp_right .inr
      · exact .inr (.inl hx)

/-! ## Both in the same parentheses -/

/-- Whatever bound on the steps is enough, an expression ends at the same place. -/
def ExpressionEnds (top : Nat) : Prop := ∀ {ℓ n n' : Nat}, Enough top 5 ℓ n n' → ∀ {c d d' : Cursor} {e e' : Expr},
  c.rest.length ≤ ℓ → expression n true c = .ok (e, d) → expression n' true c = .ok (e', d') → d.rest = d'.rest

theorem ExpressionEnds.of_moves {top : Nat} (h : ∀ {ℓ n n' : Nat}, Enough top 5 ℓ n n' →
    Moves ℓ 1 0 0 Eq (Moved Expr.shift 0 0) (expression n true) (expression n' true)) : ExpressionEnds top := by
  intro ℓ n n' hn c d d' e e' hc he he'
  obtain ⟨v, -, hs, -, -, hm⟩ := h hn c e d hc (Nat.zero_le _) he
  obtain ⟨_, hok, -⟩ := hm d.rest c.offset rfl (hs ▸ hc) rfl
  rw [← hs] at hok
  cases hok.symm.trans he'
  rfl

theorem opening_ok {c d : Cursor} (h : (do expect "("; blanks) c = .ok ((), d)) :
    ∃ rest, c.rest = '(' :: rest ∧ d.rest = rest.dropWhile Text.isBlank := by
  obtain ⟨_, c₁, ho, hb⟩ := bind_ok h
  exact ⟨c₁.rest, (expect_ok ho).1, blanks_ok hb⟩

theorem closing_ok {c d : Cursor} (h : (do blanks; expect ")") c = .ok ((), d)) :
    c.rest.dropWhile Text.isBlank = ')' :: d.rest := by
  obtain ⟨_, c₁, hb, hc⟩ := bind_ok h
  rw [← blanks_ok hb]
  exact (expect_ok hc).1

theorem length_opening {c d : Cursor} (h : (do expect "("; blanks) c = .ok ((), d)) : d.rest.length < c.rest.length := by
  obtain ⟨rest, hc, hd⟩ := opening_ok h
  rw [hc, hd, List.length_cons]
  exact Nat.lt_succ_of_le (List.dropWhile_suffix _).length_le

/-- What is read as a condition and as an expression in the same parentheses ends at the same place. -/
theorem condition_ends {top : Nat} (hsame : ExpressionEnds top) {c d d' : Cursor} {n m : Nat} {t : Condition} {e : Expr}
    (hn : 16 * c.rest.length + 8 ≤ n) (hm : 16 * c.rest.length + 5 ≤ m) (hn' : n ≤ top) (hm' : m ≤ top)
    (ht : condition n c = .ok (t, d)) (he : expression m true c = .ok (e, d')) (hd : Closes d.rest)
    (hd' : Closes d'.rest) : d.rest = d'.rest := by
  induction hk : c.rest.length using Nat.strongRecOn generalizing c d d' n m t e with
  | ind k ih =>
  subst hk
  obtain ⟨n, t', c', rfl, hneg, hstop⟩ := condition_ok ht
  -- where the first test ends in front of the parenthesis, so does the condition
  have hend (h : Closes c'.rest) : d = c' := by
    obtain h' | h' | h' := hstop
    · exact h'
    · cases h.symm.trans h'
    · cases h.symm.trans h'
  obtain hbang | ⟨n, rfl, ⟨hopen, hg⟩ | ⟨e', he'⟩⟩ := negation_ok hneg
  · obtain ⟨_, _, _, -, hmem, -⟩ := expression_ok he
    obtain ⟨_, _, _, -, hp, -⟩ := member_ok hmem
    obtain ⟨x, hx, ho⟩ := primary_opens hp
    cases hbang.symm.trans hx
    exact absurd ho (by decide)
  · obtain ⟨c₀, c₁, ho, hinner, hclose, hnot⟩ := grouped_ok hg
    obtain ⟨m, c₀', c₁', c₂', inner, rfl, ho', hinner', hclose', -, hgoes⟩ := expression_group he hopen
    cases ho.symm.trans ho'
    have hlt := length_opening ho
    have hsame : c₁.rest = c₁'.rest := ih _ hlt (by omega) (by omega) (by omega) (by omega) hinner hinner'
      (by rw [Closes, closing_ok hclose]; rfl) (by rw [Closes, closing_ok hclose']; rfl) rfl
    have hrest : c'.rest = c₂'.rest := by
      have h := closing_ok hclose'
      rw [← hsame, closing_ok hclose] at h
      exact (List.cons_eq_cons.mp h).2
    simp only [Bool.or_eq_false_iff, Cursor.startsWith, hrest] at hnot
    obtain rfl | hcolon := hgoes hnot.1.1 hnot.1.2
    · rw [hend (hrest ▸ hd'), hrest]
    · rw [← hrest] at hcolon
      obtain rfl | h | h := hstop
      · cases hd.symm.trans hcolon
      · cases h.symm.trans hcolon
      · cases h.symm.trans hcolon
  · have hrest : c'.rest = d'.rest :=
      hsame (ℓ := c.rest.length) ⟨by omega, by omega, by omega, by omega⟩ (Nat.le_refl _) he' he
    rw [hend (hrest ▸ hd'), hrest]

/-- Where a condition in parentheses can be read and an expression as well, the expression goes on behind them. -/
theorem grouped_within {top : Nat} (hsame : ExpressionEnds top) {c d d' : Cursor} {n m : Nat} {t : Condition} {e : Expr}
    (hn : 16 * c.rest.length ≤ n + 8) (hm : 16 * c.rest.length ≤ m + 7) (hn' : n ≤ top) (hm' : m ≤ top)
    (ht : grouped n c = .ok (t, d)) (he : expression m true c = .ok (e, d')) : ∃ more, d.rest = more ++ d'.rest := by
  obtain ⟨c₀, c₁, ho, hinner, hclose, -⟩ := grouped_ok ht
  obtain ⟨rest, hc, -⟩ := opening_ok ho
  obtain ⟨m, c₀', c₁', c₂', inner, rfl, ho', hinner', hclose', ⟨more, hmore, -⟩, -⟩ :=
    expression_group he (by rw [hc]; rfl)
  cases ho.symm.trans ho'
  have hlt := length_opening ho
  have hrest : c₁.rest = c₁'.rest := condition_ends hsame (by omega) (by omega) (by omega) (by omega) hinner hinner'
    (by rw [Closes, closing_ok hclose]; rfl) (by rw [Closes, closing_ok hclose']; rfl)
  have h := closing_ok hclose'
  rw [← hrest, closing_ok hclose] at h
  exact ⟨more, (List.cons_eq_cons.mp h).2.trans hmore⟩

/-! ## Tests in other places -/

variable {ℓ b b' n n' : Nat}

theorem grouped_moves (hc : ∀ ℓ' < ℓ, Moves ℓ' 1 b b' Closed (Moved Condition.shift b b') (condition n) (condition n')) :
    Moves ℓ 2 b b' Closed (Moved Condition.shift b b') (grouped n) (grouped n') := by
  refine .bind Closed.tail (expect_one rfl) fun ℓ₁ _ _ _ h₁ _ => .bind Closed.tail (blanks_moves Closed.tail)
    fun ℓ₂ _ _ h₂ _ _ => .bind Closed.tail (hc ℓ₂ (by omega)) fun _ t t' _ _ ht =>
    .bind Closed.tail (blanks_moves Closed.tail) fun _ _ _ _ _ _ => .bind_left Closed.tail (expect_closer rfl rfl)
    fun _ _ _ _ _ _ => .get_bind (fun c c' h => ?_) fun c => ?_
  · have hstarts (token : String) (ht : token.toList.dropLast.any isCloser = false) :
        c.startsWith token = c'.startsWith token := startsWith_closed ht h
    rw [hstarts "(" (by decide), hstarts "." (by decide), hstarts ":" (by decide)]
  · split
    · exact .fail_bind
    · exact .pure ht

theorem plain_moves (he : Moves ℓ 1 b b' Closed (Moved Expr.shift b b') (expression n true) (expression n' true)) :
    Moves ℓ 1 b b' Closed (Moved Condition.shift b b') (plain n) (plain n') :=
  .bind_left Closed.tail he fun _ _ _ _ _ h => .pure (congrArg Condition.value h)

/-- Whether parentheses hold a condition is the same in both places: where they do in one only, the expression that
is read in the other would end in front of what is behind them. -/
theorem opened_moves {top : Nat} (hn : Enough top 5 ℓ n n') (hsame : ExpressionEnds top)
    (hc : ∀ ℓ' < ℓ, Moves ℓ' 1 b b' Closed (Moved Condition.shift b b') (condition n) (condition n'))
    (hc' : ∀ ℓ' < ℓ, Moves ℓ' 1 b' b Closed (Moved Condition.shift b' b) (condition n') (condition n))
    (he : Moves ℓ 1 b b' Closed (Moved Expr.shift b b') (expression n true) (expression n' true)) :
    Moves ℓ 1 b b' Closed (Moved Condition.shift b b') (opened n) (opened n') := by
  intro c t d hlen hb hr
  obtain hg | ⟨⟨f, hf⟩, hp⟩ := opened_ok hr
  · obtain ⟨v, hv, hs, ho, ht, hm⟩ := grouped_moves hc c t d hlen hb hg
    refine ⟨v, hv.mono (by decide), hs, ho, ht, fun d' o' hd hd' hoff => ?_⟩
    obtain ⟨t', hg', ht'⟩ := hm d' o' hd hd' hoff
    exact ⟨t', by rw [opened, bind_apply, optional, hg']; rfl, ht'⟩
  · obtain ⟨v, hv, hs, ho, ht, hm⟩ := plain_moves he c t d hlen hb hp
    refine ⟨v, hv, hs, ho, ht, fun d' o' hd hd' hoff => ?_⟩
    obtain ⟨t', hp', ht'⟩ := hm d' o' hd hd' hoff
    cases hg' : grouped n' ⟨v ++ d', o'⟩ with
    | error f' => exact ⟨t', by rw [opened, bind_apply, optional, hg']; exact hp', ht'⟩
    | ok p =>
      exfalso
      obtain ⟨e', he', -⟩ := plain_ok hp'
      obtain ⟨h₁, h₂, h₃, h₄⟩ := hn
      obtain ⟨more, hmore⟩ := grouped_within hsame (by simp only; omega) (by simp only; omega) h₄ h₄ hg' he'
      -- so the parentheses are in the text that is taken, and in the other place they can be read as well
      obtain ⟨u, -, hs', ho', -, hm'⟩ := grouped_moves hc' _ _ _ hd' (by simp only; omega) hg'
      have hv' : v = u ++ more := by
        rw [hmore, ← List.append_assoc] at hs'
        exact List.append_cancel_right hs'
      obtain ⟨_, hok, -⟩ := hm' (more ++ d.rest) c.offset (hmore ▸ hd.symm.append more)
        (by rw [← List.append_assoc, ← hv', ← hs]; exact hlen) hoff.symm
      rw [← List.append_assoc, ← hv', ← hs] at hok
      cases hf.symm.trans hok

end Reader

end Stencil
