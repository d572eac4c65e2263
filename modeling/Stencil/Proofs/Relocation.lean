import Stencil.Proofs.Grouping
/-! Relocation. Every reader of nested source takes the same text in all places where it may stand, and gives the same
tree with its regions there. -/

namespace Stencil

namespace Reader

variable {ℓ n n' : Nat} {T : List Char → List Char → Prop}

/-- Literal text that there is some of. -/
def someText (nested : Bool) : Reader String := fun c =>
  match c.rest with
  | [] => .error ⟨.cutOff, c.offset⟩
  | x :: _ => if x = '<' || (nested && x = '\x7d') then .error ⟨.cutOff, c.offset⟩ else text nested c

theorem someText_moves {b b' : Nat} (hT : Tail T) (nested : Bool) :
    Moves ℓ 1 b b' T Eq (someText nested) (someText nested) := by
  intro c s d hc hb hr
  cases hx : c.rest with
  | nil => rw [someText, hx] at hr; cases hr
  | cons x rest =>
    rw [someText, hx] at hr
    dsimp only at hr
    split at hr
    · cases hr
    · next hend =>
      have htext : Moves ℓ 0 b b' T Eq (text nested) (text nested) := text_moves hT nested
      obtain ⟨v, -, hs, ho, ht, hm⟩ := htext c s d hc hb hr
      -- the first character is not where the text ends, and so it is taken
      obtain ⟨v, rfl⟩ : ∃ u, v = x :: u := by
        cases v with
        | nil =>
          obtain ⟨hends, -⟩ := literalText_moves nested c.rest c.offset (Prod.ext rfl rfl)
          have hd : d = (literalText nested c.rest c.offset).2 := by cases hr; rfl
          rw [← hd, show d.rest = c.rest from hs.symm, hx] at hends
          exact absurd (by simpa using hends x rfl) hend
        | cons y v => exact ⟨v, by rw [(List.cons_eq_cons.mp (hx.symm.trans hs)).1]⟩
      refine ⟨x :: v, ⟨fun _ => List.cons_ne_nil _ _, nofun⟩, hx ▸ hs, ho, ht, fun d' o' hd hd' hoff => ?_⟩
      obtain ⟨s', hr', hs'⟩ := hm d' o' hd hd' hoff
      refine ⟨s', ?_, hs'⟩
      rw [someText]
      exact (if_neg hend).trans hr'

/-- Where nothing else is next, there is literal text. -/
theorem someText_eq {nested : Bool} {c : Cursor}
    (hstop : ¬(c.rest.isEmpty || (nested && c.startsWith "\x7d") || atBranchTag c) = true)
    (htag : ¬c.startsWith "<" = true) : text nested c = someText nested c := by
  rw [Bool.or_eq_true, Bool.or_eq_true, not_or, not_or] at hstop
  obtain ⟨⟨hempty, hbrace⟩, -⟩ := hstop
  cases hc : c.rest with
  | nil => rw [hc] at hempty; exact absurd rfl hempty
  | cons x rest =>
    rw [someText, hc]
    refine (if_neg fun h => ?_).symm
    rw [Cursor.startsWith, hc, show "<".toList = ['<'] from rfl, isPrefixOf_singleton] at htag
    rw [Cursor.startsWith, hc, show "\x7d".toList = ['\x7d'] from rfl, Bool.and_eq_true, isPrefixOf_singleton] at hbrace
    rw [Bool.or_eq_true, decide_eq_true_eq, Bool.and_eq_true, decide_eq_true_eq] at h
    obtain rfl | ⟨hn, rfl⟩ := h
    · exact htag rfl
    · exact hbrace ⟨hn, rfl⟩

theorem elements_eq (n : Nat) (nested : Bool) : elements (n + 1) nested = (do
    let c ← get
    if c.rest.isEmpty || (nested && c.startsWith "\x7d") || atBranchTag c then return []
    else if c.startsWith "<!" then
      comment
      elements n nested
    else if c.startsWith "<\\" then
      let s ← special
      return .text s :: (← elements n nested)
    else if c.startsWith "<if(" then
      let e ← choice n nested
      return e :: (← elements n nested)
    else if c.startsWith "<" then
      let e ← tag n
      return e :: (← elements n nested)
    else
      let s ← someText nested
      return .text s :: (← elements n nested)) := by
  rw [elements]
  funext c
  rw [bind_apply, bind_apply]
  change (ite _ _ _ : Reader (List Element)) c = (ite _ _ _ : Reader (List Element)) c
  split
  · rfl
  split
  · rfl
  split
  · rfl
  split
  · rfl
  split
  · rfl
  · next hstop _ _ _ htag => rw [bind_apply, bind_apply, someText_eq hstop htag]

/-- What is left of a list, with the bracket that closes it. -/
def itemsRest (n : Nat) : Reader (List Expr) := do
  if ← accept "]" then return []
  let items ← listItems n
  blanks
  expect "]"
  return items

theorem itemsRest_moves {b b' : Nat}
    (h : Moves ℓ 0 b b' Closed (Moved Expr.shiftAll b b') (listItems n) (listItems n')) :
    Moves ℓ 2 b b' T (Moved Expr.shiftAll b b') (itemsRest n) (itemsRest n') :=
  accept_bind (z := 0) (List.cons_ne_nil ']' _) (refused_within (by decide))
    (fun v _ => ⟨fun _ => List.cons_ne_nil ']' v, fun _ => ⟨']', List.mem_cons_self, rfl⟩⟩) (fun _ _ => .pure rfl) <|
    .within h fun _ _ _ _ _ hi => .within (blanks_moves Closed.tail) fun _ _ _ _ _ _ =>
      .free_bind_left (expect_closer rfl rfl) fun _ _ _ _ _ _ => .pure hi

mutual

theorem elements_moves {b b' : Nat} : (top : Nat) → {ℓ n n' : Nat} → (nested : Bool) → Enough top 3 ℓ n n' →
    Moves ℓ 0 b b' Closed (Moved Element.shiftAll b b') (elements n nested) (elements n' nested)
  | 0, _, _, _, _, h => h.none.elim
  | top + 1, ℓ, _, _, nested, h => by
      obtain ⟨n, n', rfl, rfl, hn⟩ := h.succ
      rw [elements_eq, elements_eq]
      refine .get_bind (fun c c' h => ?_) fun c => ?_
      · have hempty : c.rest.isEmpty = c'.rest.isEmpty := by
          rw [List.isEmpty_eq_false_iff.mpr h.ne_nil, List.isEmpty_eq_false_iff.mpr h.symm.ne_nil]
        have hstarts (token : String) (ht : token.toList.dropLast.any isCloser = false) :
            c.startsWith token = c'.startsWith token := startsWith_closed ht h
        rw [hempty, atBranchTag_closed h, hstarts "\x7d" (by decide), hstarts "<!" (by decide), hstarts "<\\" (by decide),
          hstarts "<if(" (by decide), hstarts "<" (by decide)]
      split
      · exact .pure rfl
      split
      · exact .bind Closed.tail comment_moves fun _ _ _ _ _ _ => elements_moves top nested (hn.of (by omega))
      split
      · exact .bind Closed.tail (special_moves Closed.tail) fun _ s s' _ _ hs =>
          .bind Closed.tail (elements_moves top nested (hn.of (by omega))) fun _ _ _ _ _ hes => .pure (by
            rw [hs]; exact congrArg (Element.text s' :: ·) hes)
      split
      · exact .bind Closed.tail (choice_moves top nested (hn.of (by omega))) fun _ _ _ _ _ he =>
          .bind Closed.tail (elements_moves top nested (hn.of (by omega))) fun _ _ _ _ _ hes =>
            .pure (congrArg₂ List.cons he hes)
      split
      · exact .bind Closed.tail (tag_moves top (hn.of (by omega))) fun _ _ _ _ _ he =>
          .bind Closed.tail (elements_moves top nested (hn.of (by omega))) fun _ _ _ _ _ hes =>
            .pure (congrArg₂ List.cons he hes)
      · exact .bind Closed.tail (someText_moves Closed.tail nested) fun _ s s' _ _ hs =>
          .bind Closed.tail (elements_moves top nested (hn.of (by omega))) fun _ _ _ _ _ hes => .pure (by
            rw [hs]; exact congrArg (Element.text s' :: ·) hes)
termination_by structural top => top

theorem body_moves {b b' : Nat} : (top : Nat) → {ℓ n n' : Nat} → (nested : Bool) → Enough top 4 ℓ n n' →
    Moves ℓ 0 b b' Closed (Moved Element.shiftAll b b') (body n nested) (body n' nested)
  | 0, _, _, _, _, h => h.none.elim
  | top + 1, ℓ, _, _, nested, h => by
      obtain ⟨n, n', rfl, rfl, hn⟩ := h.succ
      rw [body, body]
      refine .map (elements_moves top nested hn) fun es es' hes => ?_
      rw [Moved, Element.shiftAll_joinTexts, Element.shiftAll_joinTexts, hes]
termination_by structural top => top

theorem choice_moves {b b' : Nat} : (top : Nat) → {ℓ n n' : Nat} → (nested : Bool) → Enough top 2 ℓ n n' →
    Moves ℓ 1 b b' Closed (Moved Element.shift b b') (choice n nested) (choice n' nested)
  | 0, _, _, _, _, h => h.none.elim
  | top + 1, ℓ, _, _, nested, h => by
      obtain ⟨n, n', rfl, rfl, hn⟩ := h.succ
      rw [choice, choice]
      refine .bind_left Closed.tail (branch_moves top nested (List.cons_ne_nil '<' _) (hn.of (by omega)))
        fun _ first first' _ _ hfirst => .bind Closed.tail (branches_moves top nested (hn.of (by omega)))
        fun _ more more' _ _ hmore =>
        .bind Closed.tail (P := Moved (fun k => Option.map (Element.shiftAll k)) b b')
          (accept_bind (z := 0) (w := 0) (List.cons_ne_nil '<' _) ((refused_closed (by decide)).behind Closed.tail)
            (fun _ _ => .nothing _) (fun _ _ => ?_) ?_)
        fun _ otherwise otherwise' _ _ ho => .bind Closed.tail (expect_moves (.nothing _)) fun _ _ _ _ _ _ => .pure ?_
      · exact .bind Closed.tail (body_moves top nested (hn.of (by omega))) fun _ _ _ _ _ h => .pure (congrArg some h)
      · exact .pure rfl
      · rw [Moved, Element.shift_choice, Element.shift_choice, Branch.shiftAll_cons, Branch.shiftAll_cons, hfirst, hmore,
          show otherwise.map (Element.shiftAll b') = _ from ho]
termination_by structural top => top

theorem branches_moves {b b' : Nat} : (top : Nat) → {ℓ n n' : Nat} → (nested : Bool) → Enough top 2 ℓ n n' →
    Moves ℓ 0 b b' Closed (Moved Branch.shiftAll b b') (branches n nested) (branches n' nested)
  | 0, _, _, _, _, h => h.none.elim
  | top + 1, ℓ, _, _, nested, h => by
      obtain ⟨n, n', rfl, rfl, hn⟩ := h.succ
      rw [branches, branches]
      refine .startsWith_bind (by decide) fun found => ?_
      split
      · refine .bind Closed.tail (branch_moves top nested (List.cons_ne_nil '<' _) (hn.of (by omega)))
          fun _ first first' _ _ hfirst => .bind Closed.tail (branches_moves top nested (hn.of (by omega)))
          fun _ more more' _ _ hmore => .pure ?_
        rw [Moved, Branch.shiftAll_cons, Branch.shiftAll_cons, hfirst, hmore]
      · exact .pure rfl
termination_by structural top => top

theorem branch_moves {b b' : Nat} : (top : Nat) → {ℓ n n' : Nat} → (nested : Bool) → {opening : String} →
    opening.toList ≠ [] → Enough top 1 ℓ n n' →
    Moves ℓ 1 b b' Closed (Moved Branch.shift b b') (branch n nested opening) (branch n' nested opening)
  | 0, _, _, _, _, _, _, h => h.none.elim
  | top + 1, ℓ, _, _, nested, _, ho, h => by
      obtain ⟨n, n', rfl, rfl, hn⟩ := h.succ
      rw [branch, branch]
      refine .offset_bind fun start start' hs => .bind_left Closed.tail (expect_moves ⟨fun _ => ho, nofun⟩)
        fun _ _ _ _ _ _ => .bind Closed.tail (blanks_moves Closed.tail) fun _ _ _ _ _ _ =>
        .bind Closed.tail (condition_moves top (hn.of (by omega))) fun _ t t' _ _ ht =>
        .bind Closed.tail (blanks_moves Closed.tail) fun _ _ _ _ _ _ =>
        .bind Closed.tail (expect_moves (.nothing _)) fun _ _ _ _ _ _ => .offset_bind fun stop stop' he =>
        .bind Closed.tail (body_moves top nested (hn.of (by omega))) fun _ body body' _ _ hb => .pure ?_
      rw [Moved, Branch.shift, Branch.shift, ht, hb, between_moved hs he]
termination_by structural top => top

theorem tag_moves {b b' : Nat} : (top : Nat) → {ℓ n n' : Nat} → Enough top 1 ℓ n n' →
    Moves ℓ 1 b b' Closed (Moved Element.shift b b') (tag n) (tag n')
  | 0, _, _, _, h => h.none.elim
  | top + 1, ℓ, _, _, h => by
      obtain ⟨n, n', rfl, rfl, hn⟩ := h.succ
      rw [tag, tag]
      refine .offset_bind fun start start' hs => .bind_left Closed.tail (expect_one rfl) fun _ _ _ _ _ _ =>
        .bind Closed.tail (blanks_moves Closed.tail) fun _ _ _ _ _ _ =>
        .bind Closed.tail (expression_moves top Closed.tail true (hn.of (by omega))) fun _ value value' _ _ hv =>
        .bind Closed.tail (blanks_moves Closed.tail) fun _ _ _ _ _ _ =>
        .bind Closed.tail (P := Moved TagOption.shiftAll b b')
          (accept_bind (z := 0) (w := 0) (List.cons_ne_nil ';' _) ((refused_head Closed.tail rfl).behind Closed.tail)
            (fun _ _ => .nothing _) (fun _ _ => options_moves top (hn.of (by omega))) (.pure rfl))
        fun _ options options' _ _ ho => .bind Closed.tail (expect_moves (.nothing _)) fun _ _ _ _ _ _ =>
        .offset_bind fun stop stop' he => .pure ?_
      rw [Moved, Element.shift, Element.shift, hv, ho, between_moved hs he]
termination_by structural top => top

theorem options_moves {b b' : Nat} : (top : Nat) → {ℓ n n' : Nat} → Enough top 1 ℓ n n' →
    Moves ℓ 0 b b' Closed (Moved TagOption.shiftAll b b') (options n) (options n')
  | 0, _, _, _, h => h.none.elim
  | top + 1, ℓ, _, _, h => by
      obtain ⟨n, n', rfl, rfl, hn⟩ := h.succ
      rw [options, options]
      refine .bind Closed.tail (blanks_moves Closed.tail) fun _ _ _ _ _ _ => .offset_bind fun start start' hs =>
        .bind Closed.tail (name_moves Closed.tail _) fun _ name name' _ _ hname => .offset_bind fun stop stop' he =>
        .bind Closed.tail (blanks_moves Closed.tail) fun _ _ _ _ _ _ =>
        .bind Closed.tail (expect_moves (.nothing _)) fun _ _ _ _ _ _ =>
        .bind Closed.tail (blanks_moves Closed.tail) fun _ _ _ _ _ _ =>
        .bind Closed.tail (expression_moves top Closed.tail false (hn.of (by omega))) fun _ value value' _ _ hv =>
        .bind Closed.tail (blanks_moves Closed.tail) fun _ _ _ _ _ _ =>
        .bind Closed.tail (P := Moved TagOption.shiftAll b b')
          (accept_bind (z := 0) (w := 0) (List.cons_ne_nil ',' _) ((refused_head Closed.tail rfl).behind Closed.tail)
            (fun _ _ => .nothing _) (fun _ _ => options_moves top (hn.of (by omega))) (.pure rfl))
        fun _ more more' _ _ hm => .pure ?_
      rw [Moved, TagOption.shiftAll, TagOption.shiftAll, hname, hv, hm, between_moved hs he]
termination_by structural top => top

theorem condition_moves {b b' : Nat} : (top : Nat) → {ℓ n n' : Nat} → Enough top 8 ℓ n n' →
    Moves ℓ 1 b b' Closed (Moved Condition.shift b b') (condition n) (condition n')
  | 0, _, _, _, h => h.none.elim
  | top + 1, ℓ, _, _, h => by
      obtain ⟨n, n', rfl, rfl, hn⟩ := h.succ
      rw [condition, condition]
      exact .bind_left Closed.tail (conjunction_moves top hn) fun _ _ _ _ _ ht => disjuncts_moves top (hn.of (by omega)) ht
termination_by structural top => top

theorem disjuncts_moves {b b' : Nat} : (top : Nat) → {ℓ n n' : Nat} → Enough top 8 ℓ n n' → {left left' : Condition} →
    Moved Condition.shift b b' left left' →
    Moves ℓ 0 b b' Closed (Moved Condition.shift b b') (disjuncts n left) (disjuncts n' left')
  | 0, _, _, _, h, _, _, _ => h.none.elim
  | top + 1, ℓ, _, _, h, left, left', hl => by
      obtain ⟨n, n', rfl, rfl, hn⟩ := h.succ
      rw [disjuncts, disjuncts]
      refine .bind Closed.tail (operator_moves Closed.tail (refusedInk_closed (by decide))) fun _ found _ _ _ hf => ?_
      subst hf
      split
      · exact .bind Closed.tail (conjunction_moves top (hn.of (by omega))) fun _ _ _ _ _ hr =>
          disjuncts_moves top (hn.of (by omega)) (congrArg₂ Condition.or hl hr)
      · exact .pure hl
termination_by structural top => top

theorem conjunction_moves {b b' : Nat} : (top : Nat) → {ℓ n n' : Nat} → Enough top 7 ℓ n n' →
    Moves ℓ 1 b b' Closed (Moved Condition.shift b b') (conjunction n) (conjunction n')
  | 0, _, _, _, h => h.none.elim
  | top + 1, ℓ, _, _, h => by
      obtain ⟨n, n', rfl, rfl, hn⟩ := h.succ
      rw [conjunction, conjunction]
      exact .bind_left Closed.tail (negation_moves top hn) fun _ _ _ _ _ ht => conjuncts_moves top (hn.of (by omega)) ht
termination_by structural top => top

theorem conjuncts_moves {b b' : Nat} : (top : Nat) → {ℓ n n' : Nat} → Enough top 7 ℓ n n' → {left left' : Condition} →
    Moved Condition.shift b b' left left' →
    Moves ℓ 0 b b' Closed (Moved Condition.shift b b') (conjuncts n left) (conjuncts n' left')
  | 0, _, _, _, h, _, _, _ => h.none.elim
  | top + 1, ℓ, _, _, h, left, left', hl => by
      obtain ⟨n, n', rfl, rfl, hn⟩ := h.succ
      rw [conjuncts, conjuncts]
      refine .bind Closed.tail (operator_moves Closed.tail (refusedInk_closed (by decide))) fun _ found _ _ _ hf => ?_
      subst hf
      split
      · exact .bind Closed.tail (negation_moves top (hn.of (by omega))) fun _ _ _ _ _ hr =>
          conjuncts_moves top (hn.of (by omega)) (congrArg₂ Condition.and hl hr)
      · exact .pure hl
termination_by structural top => top

theorem negation_moves {b b' : Nat} : (top : Nat) → {ℓ n n' : Nat} → Enough top 6 ℓ n n' →
    Moves ℓ 1 b b' Closed (Moved Condition.shift b b') (negation n) (negation n')
  | 0, _, _, _, h => h.none.elim
  | top + 1, ℓ, _, _, h => by
      obtain ⟨n, n', rfl, rfl, hn⟩ := h.succ
      rw [negation_eq, negation_eq]
      refine accept_bind (z := 0) (List.cons_ne_nil '!' _) ((refused_head Closed.tail rfl).behind Closed.tail)
        (fun v _ => ⟨fun _ => List.cons_ne_nil '!' v, nofun⟩) (fun _ _ => ?_) ?_
      · exact .bind Closed.tail (blanks_moves Closed.tail) fun _ _ _ _ _ _ =>
          .bind Closed.tail (negation_moves top (hn.of (by omega))) fun _ _ _ _ _ ht => .pure (congrArg Condition.not ht)
      · have he : Moves ℓ 1 b b' Closed (Moved Expr.shift b b') (expression n true) (expression n' true) :=
          expression_moves top Closed.tail true (hn.of (by omega))
        refine .startsWith_bind (by decide) fun found => ?_
        cases found with
        | true =>
          exact opened_moves hn (ExpressionEnds.of_moves fun hm => expression_moves top tail_eq true hm)
            (fun _ _ => condition_moves top (hn.of (by omega))) (fun _ _ => condition_moves top (hn.symm.of (by omega))) he
        | false => exact plain_moves he
termination_by structural top => top

theorem expression_moves {b b' : Nat} {T : List Char → List Char → Prop} : (top : Nat) → {ℓ n n' : Nat} → Tail T →
    (roundRobin : Bool) → Enough top 5 ℓ n n' →
    Moves ℓ 1 b b' T (Moved Expr.shift b b') (expression n roundRobin) (expression n' roundRobin)
  | 0, _, _, _, _, _, h => h.none.elim
  | top + 1, ℓ, _, _, hT, roundRobin, h => by
      obtain ⟨n, n', rfl, rfl, hn⟩ := h.succ
      rw [expression, expression]
      exact .offset_bind fun _ _ hs => .bind_left hT (member_moves top hT hn) fun _ _ _ _ _ he =>
        maps_moves top hT roundRobin (hn.of (by omega)) hs he
termination_by structural top => top

theorem maps_moves {b b' : Nat} {T : List Char → List Char → Prop} : (top : Nat) → {ℓ n n' : Nat} → Tail T →
    (roundRobin : Bool) → Enough top 3 ℓ n n' → {start start' : Nat} → start + b' = start' + b →
    {target target' : Expr} → Moved Expr.shift b b' target target' → Moves ℓ 0 b b' T (Moved Expr.shift b b')
      (maps n roundRobin start target) (maps n' roundRobin start' target')
  | 0, _, _, _, _, _, h, _, _, _, _, _, _ => h.none.elim
  | top + 1, ℓ, _, _, hT, roundRobin, h, start, start', hs, target, target', ht => by
      obtain ⟨n, n', rfl, rfl, hn⟩ := h.succ
      rw [maps, maps]
      refine .bind hT (operator_moves hT (refusedInk_head hT rfl)) fun _ found _ _ _ hf => ?_
      subst hf
      split
      · refine .bind hT (mapTarget_moves top hT (hn.of (by omega))) fun _ first first' _ _ hfirst =>
          .bind hT (P := Moved Expr.shiftAll b b') (z := 0) ?_ fun _ more more' _ _ hmore => .offset_bind fun stop stop' he =>
          maps_moves top hT roundRobin (hn.of (by omega)) hs ?_
        · split
          · exact mapTargets_moves top hT (hn.of (by omega))
          · exact .pure rfl
        · rw [Moved, Expr.shift, Expr.shift, Expr.shiftAll, Expr.shiftAll, ht, hfirst, hmore, between_moved hs he]
      · exact .pure ht
termination_by structural top => top

theorem mapTargets_moves {b b' : Nat} {T : List Char → List Char → Prop} : (top : Nat) → {ℓ n n' : Nat} → Tail T →
    Enough top 3 ℓ n n' → Moves ℓ 0 b b' T (Moved Expr.shiftAll b b') (mapTargets n) (mapTargets n')
  | 0, _, _, _, _, h => h.none.elim
  | top + 1, ℓ, _, _, hT, h => by
      obtain ⟨n, n', rfl, rfl, hn⟩ := h.succ
      rw [mapTargets, mapTargets]
      refine .bind hT (operator_moves hT (refusedInk_head hT rfl)) fun _ found _ _ _ hf => ?_
      subst hf
      split
      · exact .bind hT (mapTarget_moves top hT (hn.of (by omega))) fun _ _ _ _ _ he =>
          .bind hT (mapTargets_moves top hT (hn.of (by omega))) fun _ _ _ _ _ hes => .pure (congrArg₂ List.cons he hes)
      · exact .pure rfl
termination_by structural top => top

theorem mapTarget_moves {b b' : Nat} {T : List Char → List Char → Prop} : (top : Nat) → {ℓ n n' : Nat} → Tail T →
    Enough top 2 ℓ n n' → Moves ℓ 1 b b' T (Moved Expr.shift b b') (mapTarget n) (mapTarget n')
  | 0, _, _, _, _, h => h.none.elim
  | top + 1, ℓ, _, _, hT, h => by
      obtain ⟨n, n', rfl, rfl, hn⟩ := h.succ
      rw [mapTarget, mapTarget]
      refine .offset_bind fun start start' hs => .peek_bind (Nat.le_refl 1) fun c => ?_
      split
      · exact (anonymous_moves top (hn.of (by omega)) hs).lighter (by decide)
      · refine .bind_left hT ((parenthesized_moves top (hn.of (by omega))).lighter (by decide)) fun _ name name' _ _ hname =>
          .bind hT (arguments_moves top (hn.of (by omega))) fun _ _ _ _ _ ha => .offset_bind fun stop stop' he => .pure ?_
        rw [Moved, Expr.shift, Expr.shift, hname, ha, between_moved hs he]
      · split
        · refine .bind_left hT (name_moves hT _) fun _ name _ _ _ hname => ?_
          subst hname
          refine .bind hT (superDot_moves hT name) fun _ inherited _ _ _ hi => ?_
          subst hi
          split
          · exact (inheritedCall_moves top hT (hn.of (by omega)) hs).lighter (by decide)
          · refine .bind hT (arguments_moves top (hn.of (by omega))) fun _ _ _ _ _ ha => .offset_bind fun stop stop' he =>
              .pure ?_
            rw [Moved, Expr.shift, Expr.shift, ha, between_moved hs he]
        · exact .fail
      · exact .fail
termination_by structural top => top

theorem inheritedCall_moves {b b' : Nat} {T : List Char → List Char → Prop} : (top : Nat) → {ℓ n n' : Nat} → Tail T →
    Enough top 1 ℓ n n' → {start start' : Nat} → start + b' = start' + b →
    Moves ℓ 1 b b' T (Moved Expr.shift b b') (inheritedCall n start) (inheritedCall n' start')
  | 0, _, _, _, _, h, _, _, _ => h.none.elim
  | top + 1, ℓ, _, _, hT, h, start, start', hs => by
      obtain ⟨n, n', rfl, rfl, hn⟩ := h.succ
      rw [inheritedCall, inheritedCall]
      refine .bind_left hT (name_moves hT _) fun _ name name' _ _ hname =>
        .bind hT (arguments_moves top (hn.of (by omega))) fun _ _ _ _ _ ha => .offset_bind fun stop stop' he => .pure ?_
      rw [Moved, Expr.shift, Expr.shift, hname, ha, between_moved hs he]
termination_by structural top => top

theorem member_moves {b b' : Nat} {T : List Char → List Char → Prop} : (top : Nat) → {ℓ n n' : Nat} → Tail T →
    Enough top 4 ℓ n n' → Moves ℓ 1 b b' T (Moved Expr.shift b b') (member n) (member n')
  | 0, _, _, _, _, h => h.none.elim
  | top + 1, ℓ, _, _, hT, h => by
      obtain ⟨n, n', rfl, rfl, hn⟩ := h.succ
      rw [member, member]
      exact .offset_bind fun _ _ hs => .bind_left hT (primary_moves top hT (hn.of (by omega))) fun _ _ _ _ _ he =>
        properties_moves top hT (hn.of (by omega)) hs he
termination_by structural top => top

theorem properties_moves {b b' : Nat} {T : List Char → List Char → Prop} : (top : Nat) → {ℓ n n' : Nat} → Tail T →
    Enough top 2 ℓ n n' → {start start' : Nat} → start + b' = start' + b → {target target' : Expr} →
    Moved Expr.shift b b' target target' →
    Moves ℓ 0 b b' T (Moved Expr.shift b b') (properties n start target) (properties n' start' target')
  | 0, _, _, _, _, h, _, _, _, _, _, _ => h.none.elim
  | top + 1, ℓ, _, _, hT, h, start, start', hs, target, target', ht => by
      obtain ⟨n, n', rfl, rfl, hn⟩ := h.succ
      rw [properties, properties]
      refine accept_bind (z := 0) (List.cons_ne_nil '.' _) ((refused_head hT rfl).behind hT) (fun _ _ => .nothing _)
        (fun _ _ => .startsWith_head hT (z := 2) rfl (by decide) (by decide) ?_ ?_) (.pure ht)
      · refine .bind_left hT (parenthesized_moves top (hn.of (by omega))) fun _ key key' _ _ hk =>
          .offset_bind fun stop stop' he => properties_moves top hT (hn.of (by omega)) hs ?_
        rw [Moved, Expr.shift, Expr.shift, ht, hk, between_moved hs he]
      · refine .bind hT (propertyName_moves hT) fun _ name name' _ _ hname => .offset_bind fun stop stop' he =>
          properties_moves top hT (hn.of (by omega)) hs ?_
        rw [Moved, Expr.shift, Expr.shift, ht, hname, between_moved hs he]
termination_by structural top => top

theorem primary_moves {b b' : Nat} {T : List Char → List Char → Prop} : (top : Nat) → {ℓ n n' : Nat} → Tail T →
    Enough top 2 ℓ n n' → Moves ℓ 1 b b' T (Moved Expr.shift b b') (primary n) (primary n')
  | 0, _, _, _, _, h => h.none.elim
  | top + 1, ℓ, _, _, hT, h => by
      obtain ⟨n, n', rfl, rfl, hn⟩ := h.succ
      rw [primary, primary]
      refine .offset_bind fun start start' hs => .peek_bind (Nat.le_refl 1) fun c => ?_
      split
      · refine .bind_left hT quoted_moves fun _ s s' _ _ hq => .offset_bind fun stop stop' he => .pure ?_
        rw [Moved, Expr.shift, Expr.shift, hq, between_moved hs he]
      · refine .bind_left hT (expect_one rfl) fun _ _ _ _ hℓ _ => .bind hT (blanks_moves hT) fun _ _ _ _ _ _ =>
          .bind hT (itemsRest_moves (listItems_moves top (hn.of (by omega)))) fun _ _ _ _ _ hi => .offset_bind fun stop stop' he => .pure ?_
        rw [Moved, Expr.shift, Expr.shift, hi, between_moved hs he]
      · exact (anonymous_moves top (hn.of (by omega)) hs).lighter (by decide)
      · refine .bind_left hT ((parenthesized_moves top (hn.of (by omega))).lighter (by decide)) fun _ inner inner' _ _ hi =>
          .startsWith_head hT (z := 2) rfl (by decide) (by decide) ?_ ?_
        · refine .bind_left hT (arguments_moves top (hn.of (by omega))) fun _ _ _ _ _ ha =>
            .offset_bind fun stop stop' he => .pure ?_
          rw [Moved, Expr.shift, Expr.shift, hi, ha, between_moved hs he]
        · refine .offset_bind fun stop stop' he => .pure ?_
          rw [Moved, Expr.shift, Expr.shift, hi, between_moved hs he]
      · split
        · exact named_moves top hT hn hs
        · exact .fail
      · exact .fail
termination_by structural top => top

theorem named_moves {b b' : Nat} {T : List Char → List Char → Prop} : (top : Nat) → {ℓ n n' : Nat} → Tail T →
    Enough top 1 ℓ n n' → {start start' : Nat} → start + b' = start' + b →
    Moves ℓ 1 b b' T (Moved Expr.shift b b') (named n start) (named n' start')
  | 0, _, _, _, _, h, _, _, _ => h.none.elim
  | top + 1, ℓ, _, _, hT, h, start, start', hs => by
      obtain ⟨n, n', rfl, rfl, hn⟩ := h.succ
      rw [named, named]
      refine .bind_left hT (name_moves hT _) fun _ name _ _ _ hname => ?_
      subst hname
      refine .bind hT (superDot_moves hT name) fun _ inherited _ _ _ hi => ?_
      subst hi
      split
      · exact (inheritedCall_moves top hT (hn.of (by omega)) hs).lighter (by decide)
      refine .startsWith_head hT (z := 2) rfl (by decide) (by decide) ?_ (.offset_bind fun stop stop' he => .pure ?_)
      · rw [if_pos rfl, if_pos rfl]
        split
        · refine .bind_left hT (parenthesized_moves top (hn.of (by omega))) fun _ argument argument' _ _ ha =>
            .offset_bind fun stop stop' he => .pure ?_
          rw [Moved, Expr.shift, Expr.shift, ha, between_moved hs he]
        · refine .bind_left hT (arguments_moves top (hn.of (by omega))) fun _ _ _ _ _ ha =>
            .offset_bind fun stop stop' he => .pure ?_
          rw [Moved, Expr.shift, Expr.shift, ha, between_moved hs he]
      · split
        · exact congrArg (Expr.truth true) (between_moved hs he)
        split
        · exact congrArg (Expr.truth false) (between_moved hs he)
        · exact congrArg (Expr.attribute name) (between_moved hs he)
termination_by structural top => top

theorem parenthesized_moves {b b' : Nat} {T : List Char → List Char → Prop} : (top : Nat) → {ℓ n n' : Nat} →
    Enough top 1 ℓ n n' → Moves ℓ 2 b b' T (Moved Expr.shift b b') (parenthesized n) (parenthesized n')
  | 0, _, _, _, h => h.none.elim
  | top + 1, ℓ, _, _, h => by
      obtain ⟨n, n', rfl, rfl, hn⟩ := h.succ
      rw [parenthesized, parenthesized]
      exact .free_bind (expect_one rfl) fun _ _ _ _ _ _ => .within (blanks_moves Closed.tail) fun _ _ _ _ _ _ =>
        .within (expression_moves top Closed.tail true (hn.of (by omega))) fun _ _ _ _ _ he =>
        .within (blanks_moves Closed.tail) fun _ _ _ _ _ _ => .free_bind_left (expect_closer rfl rfl)
        fun _ _ _ _ _ _ => .pure he
termination_by structural top => top

theorem arguments_moves {b b' : Nat} {T : List Char → List Char → Prop} : (top : Nat) → {ℓ n n' : Nat} →
    Enough top 1 ℓ n n' → Moves ℓ 2 b b' T (Moved Arguments.shift b b') (arguments n) (arguments n')
  | 0, _, _, _, h => h.none.elim
  | top + 1, ℓ, _, _, h => by
      obtain ⟨n, n', rfl, rfl, hn⟩ := h.succ
      rw [arguments, arguments]
      refine .free_bind (expect_one rfl) fun _ _ _ _ _ _ => .within (blanks_moves Closed.tail) fun _ _ _ _ _ _ =>
        accept_bind (z := 0) (List.cons_ne_nil ')' _) (refused_within (by decide))
          (fun v _ => ⟨fun _ => List.cons_ne_nil ')' v, fun _ => ⟨')', List.mem_cons_self, rfl⟩⟩)
          (fun _ _ => .pure rfl) ?_
      refine .within (w := 0) (P := Moved Arguments.shift b b') (.get_bind (fun c c' h => ?_) fun c => ?_)
        fun _ _ _ _ _ ha => .within (blanks_moves Closed.tail) fun _ _ _ _ _ _ =>
        .free_bind_left (expect_closer rfl rfl) fun _ _ _ _ _ _ => .pure ha
      · rw [startsNamed_closed h]
      · split
        · exact .bind Closed.tail (namedArguments_moves top (hn.of (by omega))) fun _ _ _ _ _ h =>
            .pure (congrArg Arguments.named h)
        · exact .bind Closed.tail (positionalArguments_moves top (hn.of (by omega))) fun _ _ _ _ _ h =>
            .pure (congrArg Arguments.positional h)
termination_by structural top => top

theorem namedArguments_moves {b b' : Nat} : (top : Nat) → {ℓ n n' : Nat} → Enough top 1 ℓ n n' →
    Moves ℓ 0 b b' Closed (Moved NamedArgument.shiftAll b b') (namedArguments n) (namedArguments n')
  | 0, _, _, _, h => h.none.elim
  | top + 1, ℓ, _, _, h => by
      obtain ⟨n, n', rfl, rfl, hn⟩ := h.succ
      rw [namedArguments, namedArguments]
      refine .get_bind (fun c c' h => ?_) fun c => ?_
      · rw [startsNamed_closed h]
      split
      · refine .offset_bind fun start start' hs =>
          .bind Closed.tail (name_moves Closed.tail _) fun _ name name' _ _ hname => .offset_bind fun stop stop' he =>
          .bind Closed.tail (blanks_moves Closed.tail) fun _ _ _ _ _ _ =>
          .bind Closed.tail (expect_moves (.nothing _)) fun _ _ _ _ _ _ =>
          .bind Closed.tail (blanks_moves Closed.tail) fun _ _ _ _ _ _ =>
          .bind Closed.tail (expression_moves top Closed.tail false (hn.of (by omega))) fun _ value value' _ _ hv =>
          .bind Closed.tail (z := 0) (P := Moved NamedArgument.shiftAll b b')
            (.bind Closed.tail (comma_moves Closed.tail) fun _ found _ _ _ hf => ?_) fun _ more more' _ _ hm => .pure ?_
        · subst hf
          split
          · exact namedArguments_moves top (hn.of (by omega))
          · exact .pure rfl
        · rw [Moved, NamedArgument.shiftAll, NamedArgument.shiftAll, hname, hv, hm, between_moved hs he]
      · exact .fail_bind
termination_by structural top => top

theorem positionalArguments_moves {b b' : Nat} : (top : Nat) → {ℓ n n' : Nat} → Enough top 6 ℓ n n' →
    Moves ℓ 0 b b' Closed (Moved Expr.shiftAll b b') (positionalArguments n) (positionalArguments n')
  | 0, _, _, _, h => h.none.elim
  | top + 1, ℓ, _, _, h => by
      obtain ⟨n, n', rfl, rfl, hn⟩ := h.succ
      rw [positionalArguments, positionalArguments]
      refine .get_bind (fun c c' h => ?_) fun c => ?_
      · rw [startsNamed_closed h]
      split
      · exact .fail_bind
      · refine .bind Closed.tail (expression_moves top Closed.tail false hn) fun _ value value' _ _ hv =>
          .bind Closed.tail (z := 0) (P := Moved Expr.shiftAll b b')
            (.bind Closed.tail (comma_moves Closed.tail) fun _ found _ _ _ hf => ?_)
          fun _ more more' _ _ hm => .pure (congrArg₂ List.cons hv hm)
        subst hf
        split
        · exact positionalArguments_moves top (hn.of (by omega))
        · exact .pure rfl
termination_by structural top => top

theorem listItems_moves {b b' : Nat} : (top : Nat) → {ℓ n n' : Nat} → Enough top 6 ℓ n n' →
    Moves ℓ 0 b b' Closed (Moved Expr.shiftAll b b') (listItems n) (listItems n')
  | 0, _, _, _, h => h.none.elim
  | top + 1, ℓ, _, _, h => by
      obtain ⟨n, n', rfl, rfl, hn⟩ := h.succ
      rw [listItems, listItems]
      refine .bind Closed.tail (expression_moves top Closed.tail false hn) fun _ value value' _ _ hv =>
        .bind Closed.tail (z := 0) (P := Moved Expr.shiftAll b b')
          (.bind Closed.tail (comma_moves Closed.tail) fun _ found _ _ _ hf => ?_)
        fun _ more more' _ _ hm => .pure (congrArg₂ List.cons hv hm)
      subst hf
      split
      · exact listItems_moves top (hn.of (by omega))
      · exact .pure rfl
termination_by structural top => top

theorem anonymous_moves {b b' : Nat} {T : List Char → List Char → Prop} : (top : Nat) → {ℓ n n' : Nat} →
    Enough top 1 ℓ n n' → {start start' : Nat} → start + b' = start' + b →
    Moves ℓ 2 b b' T (Moved Expr.shift b b') (anonymous n start) (anonymous n' start')
  | 0, _, _, _, h, _, _, _ => h.none.elim
  | top + 1, ℓ, _, _, h, start, start', hs => by
      obtain ⟨n, n', rfl, rfl, hn⟩ := h.succ
      rw [anonymous, anonymous]
      refine .free_bind (expect_one rfl) fun _ _ _ _ _ _ => .within parameter_moves fun _ parameter parameter' _ _ hp =>
        .within (body_moves top true (hn.of (by omega))) fun _ body body' _ _ hb =>
        .free_bind_left (expect_closer rfl rfl) fun _ _ _ _ _ _ => .offset_bind fun stop stop' he => .pure ?_
      rw [Moved, Expr.shift, Expr.shift, hp, hb, between_moved hs he]
termination_by structural top => top

end

end Reader

end Stencil
