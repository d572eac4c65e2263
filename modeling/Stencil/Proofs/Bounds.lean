import Stencil.Proofs.Relocation
/-! The bound on the number of steps. A reader that starts with enough steps for what is left of the source gives or
refuses the same with any more of them, and so the bound that reading starts with is never met. -/

namespace Stencil

namespace Reader

variable {α β : Type} {ℓ w z n n' top : Nat}

/-- Two readers give or refuse the same in front of texts of at most `ℓ` characters, and take at least `w` of these
where they give something. -/
def Agree (ℓ w : Nat) (r r' : Reader α) : Prop :=
  ∀ c, c.rest.length ≤ ℓ → r' c = r c ∧ ∀ a d, r c = .ok (a, d) → d.rest.length + w ≤ c.rest.length

namespace Agree

variable {r r' : Reader α} {f f' : α → Reader β}

theorem pure {a : α} : Agree ℓ 0 (pure a : Reader α) (pure a) := by
  refine fun c _ => ⟨rfl, fun x d h => ?_⟩
  cases h
  exact Nat.le_refl _

theorem fail {fault : Fault} : Agree ℓ w (Reader.fail fault : Reader α) (Reader.fail fault) := fun _ _ => ⟨rfl, nofun⟩

theorem fail_bind {fault : Fault} : Agree ℓ w (Reader.fail fault >>= f) (Reader.fail fault >>= f') :=
  fun _ _ => ⟨rfl, nofun⟩

/-- A reader without a bound. -/
theorem same (h : r.Ahead) : Agree ℓ 0 r r := by
  refine fun c _ => ⟨rfl, fun a d hr => ?_⟩
  obtain ⟨v, hs, -⟩ := h.forward hr
  rw [hs, List.length_append]
  omega

/-- A reader without a bound that takes something. -/
theorem taking {R : α → α → Prop} (h : Moves ℓ 1 0 0 Eq R r r) : Agree ℓ 1 r r := by
  refine fun c hc => ⟨rfl, fun a d hr => ?_⟩
  obtain ⟨v, hv, hs, -⟩ := h c a d hc (Nat.zero_le _) hr
  have hpos := List.length_pos_iff.mpr (hv.1 (Nat.le_refl 1))
  rw [hs, List.length_append]
  omega

theorem lighter (h : Agree ℓ w r r') (hw : z ≤ w) : Agree ℓ z r r' := by
  refine fun c hc => ⟨(h c hc).1, fun a d hr => ?_⟩
  have := (h c hc).2 a d hr
  omega

/-- One reader behind another. What the first one takes is not left for the second one. -/
theorem add (h : Agree ℓ z r r') (hf : ∀ ℓ' a, ℓ' + z ≤ ℓ → Agree ℓ' w (f a) (f' a)) :
    Agree ℓ (z + w) (r >>= f) (r' >>= f') := by
  intro c hc
  obtain ⟨hsame, hless⟩ := h c hc
  rw [bind_apply, bind_apply, hsame]
  cases hr : r c with
  | error e => exact ⟨rfl, nofun⟩
  | ok p =>
    have hp := hless p.1 p.2 hr
    obtain ⟨hsame', hless'⟩ := hf p.2.rest.length p.1 (by omega) p.2 (Nat.le_refl _)
    refine ⟨hsame', fun b d hb => ?_⟩
    have := hless' b d hb
    omega

/-- One reader behind another. They take as much as the second one. -/
theorem bind (h : Agree ℓ z r r') (hf : ∀ ℓ' a, ℓ' + z ≤ ℓ → Agree ℓ' w (f a) (f' a)) :
    Agree ℓ w (r >>= f) (r' >>= f') := (h.add hf).lighter (Nat.le_add_left _ _)

/-- One reader behind another. They take as much as the first one. -/
theorem bind_left (h : Agree ℓ w r r') (hf : ∀ ℓ' a, ℓ' + w ≤ ℓ → Agree ℓ' 0 (f a) (f' a)) :
    Agree ℓ w (r >>= f) (r' >>= f') := h.add hf

theorem map {g : α → β} (h : Agree ℓ w r r') : Agree ℓ w (g <$> r) (g <$> r') := by
  rw [← bind_pure_comp, ← bind_pure_comp]
  exact h.bind_left fun _ _ _ => .pure

theorem get_bind {f f' : Cursor → Reader β} (h : ∀ c, Agree ℓ w (f c) (f' c)) :
    Agree ℓ w ((get : Reader Cursor) >>= f) (get >>= f') := fun c => h c c

theorem offset_bind {f f' : Nat → Reader β} (h : ∀ o, Agree ℓ w (f o) (f' o)) :
    Agree ℓ w (offset >>= f) (offset >>= f') := fun c => h c.offset c

/-- A token that is taken if it is next, and what is done in both cases. -/
theorem accept_bind {token : String} {f f' : Bool → Reader β} (ht : token.toList ≠ []) (hw : w ≤ z + 1)
    (htrue : ∀ ℓ' < ℓ, Agree ℓ' z (f true) (f' true)) (hfalse : Agree ℓ w (f false) (f' false)) :
    Agree ℓ w (accept token >>= f) (accept token >>= f') := by
  intro c hc
  rw [bind_apply, bind_apply]
  cases hr : accept token c with
  | error e => exact ⟨rfl, nofun⟩
  | ok p =>
    obtain ⟨found, e⟩ := p
    obtain ⟨rfl, hs, -⟩ | ⟨rfl, rfl, -⟩ := accept_ok hr
    · have hpos := List.length_pos_iff.mpr ht
      have hlen := congrArg List.length hs
      rw [List.length_append] at hlen
      obtain ⟨hsame, hless⟩ := htrue e.rest.length (by omega) e (Nat.le_refl _)
      refine ⟨hsame, fun b d hb => ?_⟩
      have := hless b d hb
      omega
    · exact hfalse e hc

/-- What may fail, and what is done then and where it does not. -/
theorem optional_bind {f f' : Option α → Reader β} (h : Agree ℓ w r r')
    (hsome : ∀ ℓ' a, ℓ' + w ≤ ℓ → Agree ℓ' 0 (f (some a)) (f' (some a))) (hnone : Agree ℓ w (f none) (f' none)) :
    Agree ℓ w (optional r >>= f) (optional r' >>= f') := by
  intro c hc
  obtain ⟨hsame, hless⟩ := h c hc
  rw [bind_apply, bind_apply, optional, optional, hsame]
  cases hr : r c with
  | error e => exact hnone c hc
  | ok p =>
    have hp := hless p.1 p.2 hr
    obtain ⟨hsame', hless'⟩ := hsome p.2.rest.length p.1 (by omega) p.2 (Nat.le_refl _)
    refine ⟨hsame', fun b d hb => ?_⟩
    have := hless' b d hb
    omega

end Agree

/-- A test that starts with a parenthesis, behind which a condition may stand. -/
theorem opened_agree (hinner : ∀ ℓ' < ℓ, Agree ℓ' 1 (condition n) (condition n'))
    (hplain : Agree ℓ 1 (plain n) (plain n')) : Agree ℓ 1 (opened n) (opened n') := by
  have hgrouped : Agree ℓ 1 (grouped n) (grouped n') := by
    refine .bind_left (.taking (expect_one rfl)) fun ℓ' _ hℓ => .bind (.same blanks_ahead) fun _ _ _ =>
      .bind (hinner _ (by omega)) fun _ _ _ => .bind (.same blanks_ahead) fun _ _ _ =>
      .bind (.same (expect_ahead _)) fun _ _ _ => .get_bind fun c => ?_
    split
    · exact .fail_bind
    · exact .pure
  exact .optional_bind hgrouped (fun _ _ _ => .pure) hplain

/-! ## Readers of trees -/

-- The induction is on a number that neither bound exceeds. What a reader needs of its own bound is said by the
-- characters that are left: between two of them, at most eight steps are taken.

mutual

theorem elements_agree : (top : Nat) → {ℓ n n' : Nat} → (nested : Bool) → Enough top 3 ℓ n n' →
    Agree ℓ 0 (elements n nested) (elements n' nested)
  | 0, _, _, _, _, h => h.none.elim
  | top + 1, ℓ, _, _, nested, h => by
      obtain ⟨n, n', rfl, rfl, hn⟩ := h.succ
      have hrest (ℓ' : Nat) (hℓ : ℓ' + 1 ≤ ℓ) : Agree ℓ' 0 (elements n nested) (elements n' nested) :=
        elements_agree top nested (hn.of (by omega))
      rw [elements_eq, elements_eq]
      refine .get_bind fun c => ?_
      split
      · exact .pure
      split
      · exact .bind (.taking comment_moves) fun ℓ' _ hℓ => hrest ℓ' hℓ
      split
      · exact .bind (.taking (special_moves tail_eq)) fun ℓ' _ hℓ => .bind (hrest ℓ' hℓ) fun _ _ _ => .pure
      split
      · exact .bind (choice_agree top nested (hn.of (by omega))) fun ℓ' _ hℓ => .bind (hrest ℓ' hℓ) fun _ _ _ => .pure
      split
      · exact .bind (tag_agree top (hn.of (by omega))) fun ℓ' _ hℓ => .bind (hrest ℓ' hℓ) fun _ _ _ => .pure
      · exact .bind (.taking (someText_moves tail_eq nested)) fun ℓ' _ hℓ => .bind (hrest ℓ' hℓ) fun _ _ _ => .pure
termination_by structural top => top

theorem body_agree : (top : Nat) → {ℓ n n' : Nat} → (nested : Bool) → Enough top 4 ℓ n n' →
    Agree ℓ 0 (body n nested) (body n' nested)
  | 0, _, _, _, _, h => h.none.elim
  | top + 1, ℓ, _, _, nested, h => by
      obtain ⟨n, n', rfl, rfl, hn⟩ := h.succ
      rw [body, body]
      exact .map (elements_agree top nested hn)
termination_by structural top => top

theorem choice_agree : (top : Nat) → {ℓ n n' : Nat} → (nested : Bool) → Enough top 2 ℓ n n' →
    Agree ℓ 1 (choice n nested) (choice n' nested)
  | 0, _, _, _, _, h => h.none.elim
  | top + 1, ℓ, _, _, nested, h => by
      obtain ⟨n, n', rfl, rfl, hn⟩ := h.succ
      rw [choice, choice]
      refine .bind_left (branch_agree top nested (List.cons_ne_nil '<' _) (hn.of (by omega))) fun _ _ _ =>
        .bind (branches_agree top nested (hn.of (by omega))) fun _ _ _ =>
        .bind (z := 0) (.accept_bind (z := 0) (List.cons_ne_nil '<' _) (Nat.zero_le _) (fun _ _ => ?_) .pure)
        fun _ _ _ => .bind (.same (expect_ahead _)) fun _ _ _ => .pure
      exact .bind (body_agree top nested (hn.of (by omega))) fun _ _ _ => .pure
termination_by structural top => top

theorem branches_agree : (top : Nat) → {ℓ n n' : Nat} → (nested : Bool) → Enough top 2 ℓ n n' →
    Agree ℓ 0 (branches n nested) (branches n' nested)
  | 0, _, _, _, _, h => h.none.elim
  | top + 1, ℓ, _, _, nested, h => by
      obtain ⟨n, n', rfl, rfl, hn⟩ := h.succ
      rw [branches, branches]
      refine .bind (.same (startsWith_ahead _)) fun _ found _ => ?_
      split
      · exact .bind (branch_agree top nested (List.cons_ne_nil '<' _) (hn.of (by omega))) fun _ _ _ =>
          .bind (branches_agree top nested (hn.of (by omega))) fun _ _ _ => .pure
      · exact .pure
termination_by structural top => top

theorem branch_agree : (top : Nat) → {ℓ n n' : Nat} → (nested : Bool) → {opening : String} → opening.toList ≠ [] →
    Enough top 1 ℓ n n' → Agree ℓ 1 (branch n nested opening) (branch n' nested opening)
  | 0, _, _, _, _, _, _, h => h.none.elim
  | top + 1, ℓ, _, _, nested, _, ho, h => by
      obtain ⟨n, n', rfl, rfl, hn⟩ := h.succ
      rw [branch, branch]
      exact .offset_bind fun _ => .bind_left (.taking (expect_moves ⟨fun _ => ho, nofun⟩)) fun _ _ _ =>
        .bind (.same blanks_ahead) fun _ _ _ => .bind (condition_agree top (hn.of (by omega))) fun _ _ _ =>
        .bind (.same blanks_ahead) fun _ _ _ => .bind (.same (expect_ahead _)) fun _ _ _ => .offset_bind fun _ =>
        .bind (body_agree top nested (hn.of (by omega))) fun _ _ _ => .pure
termination_by structural top => top

theorem tag_agree : (top : Nat) → {ℓ n n' : Nat} → Enough top 1 ℓ n n' → Agree ℓ 1 (tag n) (tag n')
  | 0, _, _, _, h => h.none.elim
  | top + 1, ℓ, _, _, h => by
      obtain ⟨n, n', rfl, rfl, hn⟩ := h.succ
      rw [tag, tag]
      exact .offset_bind fun _ => .bind_left (.taking (expect_one rfl)) fun _ _ _ =>
        .bind (.same blanks_ahead) fun _ _ _ => .bind (expression_agree top true (hn.of (by omega))) fun _ _ _ =>
        .bind (.same blanks_ahead) fun _ _ _ => .bind (.accept_bind (z := 0) (List.cons_ne_nil ';' _) (Nat.zero_le _)
          (fun _ _ => options_agree top (hn.of (by omega))) .pure) fun _ _ _ =>
        .bind (.same (expect_ahead _)) fun _ _ _ => .offset_bind fun _ => .pure
termination_by structural top => top

theorem options_agree : (top : Nat) → {ℓ n n' : Nat} → Enough top 1 ℓ n n' → Agree ℓ 0 (options n) (options n')
  | 0, _, _, _, h => h.none.elim
  | top + 1, ℓ, _, _, h => by
      obtain ⟨n, n', rfl, rfl, hn⟩ := h.succ
      rw [options, options]
      exact .bind (.same blanks_ahead) fun _ _ _ => .offset_bind fun _ =>
        .bind (.taking (name_moves tail_eq _)) fun _ _ _ => .offset_bind fun _ =>
        .bind (.same blanks_ahead) fun _ _ _ => .bind (.same (expect_ahead _)) fun _ _ _ =>
        .bind (.same blanks_ahead) fun _ _ _ =>
        .bind (expression_agree top false (hn.of (by omega))) fun _ _ _ => .bind (.same blanks_ahead) fun _ _ _ =>
        .bind (.accept_bind (z := 0) (List.cons_ne_nil ',' _) (Nat.zero_le _)
          (fun _ _ => options_agree top (hn.of (by omega))) .pure) fun _ _ _ => .pure
termination_by structural top => top

theorem condition_agree : (top : Nat) → {ℓ n n' : Nat} → Enough top 8 ℓ n n' → Agree ℓ 1 (condition n) (condition n')
  | 0, _, _, _, h => h.none.elim
  | top + 1, ℓ, _, _, h => by
      obtain ⟨n, n', rfl, rfl, hn⟩ := h.succ
      rw [condition, condition]
      exact .bind_left (conjunction_agree top hn) fun _ left _ => disjuncts_agree top left (hn.of (by omega))
termination_by structural top => top

theorem disjuncts_agree : (top : Nat) → {ℓ n n' : Nat} → (left : Condition) → Enough top 8 ℓ n n' →
    Agree ℓ 0 (disjuncts n left) (disjuncts n' left)
  | 0, _, _, _, _, h => h.none.elim
  | top + 1, ℓ, _, _, left, h => by
      obtain ⟨n, n', rfl, rfl, hn⟩ := h.succ
      rw [disjuncts, disjuncts]
      refine .bind (.same (operator_ahead _)) fun _ found _ => ?_
      split
      · exact .bind (conjunction_agree top (hn.of (by omega))) fun _ right _ =>
          disjuncts_agree top (.or left right) (hn.of (by omega))
      · exact .pure
termination_by structural top => top

theorem conjunction_agree : (top : Nat) → {ℓ n n' : Nat} → Enough top 7 ℓ n n' →
    Agree ℓ 1 (conjunction n) (conjunction n')
  | 0, _, _, _, h => h.none.elim
  | top + 1, ℓ, _, _, h => by
      obtain ⟨n, n', rfl, rfl, hn⟩ := h.succ
      rw [conjunction, conjunction]
      exact .bind_left (negation_agree top hn) fun _ left _ => conjuncts_agree top left (hn.of (by omega))
termination_by structural top => top

theorem conjuncts_agree : (top : Nat) → {ℓ n n' : Nat} → (left : Condition) → Enough top 7 ℓ n n' →
    Agree ℓ 0 (conjuncts n left) (conjuncts n' left)
  | 0, _, _, _, _, h => h.none.elim
  | top + 1, ℓ, _, _, left, h => by
      obtain ⟨n, n', rfl, rfl, hn⟩ := h.succ
      rw [conjuncts, conjuncts]
      refine .bind (.same (operator_ahead _)) fun _ found _ => ?_
      split
      · exact .bind (negation_agree top (hn.of (by omega))) fun _ right _ =>
          conjuncts_agree top (.and left right) (hn.of (by omega))
      · exact .pure
termination_by structural top => top

theorem negation_agree : (top : Nat) → {ℓ n n' : Nat} → Enough top 6 ℓ n n' → Agree ℓ 1 (negation n) (negation n')
  | 0, _, _, _, h => h.none.elim
  | top + 1, ℓ, _, _, h => by
      obtain ⟨n, n', rfl, rfl, hn⟩ := h.succ
      have hplain (ℓ' : Nat) (hℓ : ℓ' + 0 ≤ ℓ) : Agree ℓ' 1 (plain n) (plain n') :=
        .bind_left (expression_agree top true (hn.of (by omega))) fun _ _ _ => .pure
      rw [negation_eq, negation_eq]
      refine .accept_bind (z := 0) (List.cons_ne_nil '!' _) (Nat.le_refl 1) (fun _ _ => ?_) ?_
      · exact .bind (.same blanks_ahead) fun _ _ _ => .bind (negation_agree top (hn.of (by omega))) fun _ _ _ => .pure
      refine .bind (.same (startsWith_ahead _)) fun ℓ' isOpen hℓ => ?_
      split
      · exact opened_agree (fun _ _ => condition_agree top (hn.of (by omega))) (hplain ℓ' hℓ)
      · exact hplain ℓ' hℓ
termination_by structural top => top

theorem expression_agree : (top : Nat) → {ℓ n n' : Nat} → (roundRobin : Bool) → Enough top 5 ℓ n n' →
    Agree ℓ 1 (expression n roundRobin) (expression n' roundRobin)
  | 0, _, _, _, _, h => h.none.elim
  | top + 1, ℓ, _, _, roundRobin, h => by
      obtain ⟨n, n', rfl, rfl, hn⟩ := h.succ
      rw [expression, expression]
      exact .offset_bind fun start => .bind_left (member_agree top hn) fun _ target _ =>
        maps_agree top roundRobin start target (hn.of (by omega))
termination_by structural top => top

theorem maps_agree : (top : Nat) → {ℓ n n' : Nat} → (roundRobin : Bool) → (start : Nat) → (target : Expr) →
    Enough top 3 ℓ n n' → Agree ℓ 0 (maps n roundRobin start target) (maps n' roundRobin start target)
  | 0, _, _, _, _, _, _, h => h.none.elim
  | top + 1, ℓ, _, _, roundRobin, start, target, h => by
      obtain ⟨n, n', rfl, rfl, hn⟩ := h.succ
      rw [maps, maps]
      refine .bind (.same (operator_ahead _)) fun _ found _ => ?_
      split
      · refine .bind (mapTarget_agree top (hn.of (by omega))) fun _ _ _ => .bind (z := 0) ?_ fun _ _ _ =>
          .offset_bind fun _ => maps_agree top roundRobin start _ (hn.of (by omega))
        split
        · exact mapTargets_agree top (hn.of (by omega))
        · exact .pure
      · exact .pure
termination_by structural top => top

theorem mapTargets_agree : (top : Nat) → {ℓ n n' : Nat} → Enough top 3 ℓ n n' →
    Agree ℓ 0 (mapTargets n) (mapTargets n')
  | 0, _, _, _, h => h.none.elim
  | top + 1, ℓ, _, _, h => by
      obtain ⟨n, n', rfl, rfl, hn⟩ := h.succ
      rw [mapTargets, mapTargets]
      refine .bind (.same (operator_ahead _)) fun _ found _ => ?_
      split
      · exact .bind (mapTarget_agree top (hn.of (by omega))) fun _ _ _ =>
          .bind (mapTargets_agree top (hn.of (by omega))) fun _ _ _ => .pure
      · exact .pure
termination_by structural top => top

theorem mapTarget_agree : (top : Nat) → {ℓ n n' : Nat} → Enough top 2 ℓ n n' → Agree ℓ 1 (mapTarget n) (mapTarget n')
  | 0, _, _, _, h => h.none.elim
  | top + 1, ℓ, _, _, h => by
      obtain ⟨n, n', rfl, rfl, hn⟩ := h.succ
      rw [mapTarget, mapTarget]
      refine .offset_bind fun start => .bind (.same peek?_ahead) fun _ c _ => ?_
      split
      · exact anonymous_agree top start (hn.of (by omega))
      · exact .bind_left (parenthesized_agree top (hn.of (by omega))) fun _ _ _ =>
          .bind (arguments_agree top (hn.of (by omega))) fun _ _ _ => .offset_bind fun _ => .pure
      · split
        · refine .bind_left (.taking (name_moves tail_eq _)) fun _ _ _ => .bind (.same (superDot_ahead _))
            fun _ inherited _ => ?_
          split
          · exact (inheritedCall_agree top start (hn.of (by omega))).lighter (Nat.zero_le _)
          · exact .bind (arguments_agree top (hn.of (by omega))) fun _ _ _ => .offset_bind fun _ => .pure
        · exact .fail
      · exact .fail
termination_by structural top => top

theorem inheritedCall_agree : (top : Nat) → {ℓ n n' : Nat} → (start : Nat) → Enough top 1 ℓ n n' →
    Agree ℓ 1 (inheritedCall n start) (inheritedCall n' start)
  | 0, _, _, _, _, h => h.none.elim
  | top + 1, ℓ, _, _, start, h => by
      obtain ⟨n, n', rfl, rfl, hn⟩ := h.succ
      rw [inheritedCall, inheritedCall]
      exact .bind_left (.taking (name_moves tail_eq _)) fun _ _ _ =>
        .bind (arguments_agree top (hn.of (by omega))) fun _ _ _ => .offset_bind fun _ => .pure
termination_by structural top => top

theorem member_agree : (top : Nat) → {ℓ n n' : Nat} → Enough top 4 ℓ n n' → Agree ℓ 1 (member n) (member n')
  | 0, _, _, _, h => h.none.elim
  | top + 1, ℓ, _, _, h => by
      obtain ⟨n, n', rfl, rfl, hn⟩ := h.succ
      rw [member, member]
      exact .offset_bind fun start => .bind_left (primary_agree top (hn.of (by omega))) fun _ target _ =>
        properties_agree top start target (hn.of (by omega))
termination_by structural top => top

theorem properties_agree : (top : Nat) → {ℓ n n' : Nat} → (start : Nat) → (target : Expr) → Enough top 2 ℓ n n' →
    Agree ℓ 0 (properties n start target) (properties n' start target)
  | 0, _, _, _, _, _, h => h.none.elim
  | top + 1, ℓ, _, _, start, target, h => by
      obtain ⟨n, n', rfl, rfl, hn⟩ := h.succ
      rw [properties, properties]
      refine .accept_bind (z := 0) (List.cons_ne_nil '.' _) (Nat.zero_le _) (fun _ _ => ?_) .pure
      refine .bind (.same (startsWith_ahead _)) fun _ opened _ => ?_
      split
      · exact .bind (parenthesized_agree top (hn.of (by omega))) fun _ _ _ => .offset_bind fun _ =>
          properties_agree top start _ (hn.of (by omega))
      · exact .bind (.same propertyName_ahead) fun _ _ _ => .offset_bind fun _ =>
          properties_agree top start _ (hn.of (by omega))
termination_by structural top => top

theorem primary_agree : (top : Nat) → {ℓ n n' : Nat} → Enough top 2 ℓ n n' → Agree ℓ 1 (primary n) (primary n')
  | 0, _, _, _, h => h.none.elim
  | top + 1, ℓ, _, _, h => by
      obtain ⟨n, n', rfl, rfl, hn⟩ := h.succ
      rw [primary, primary]
      refine .offset_bind fun start => .bind (.same peek?_ahead) fun _ c _ => ?_
      split
      · exact .bind_left (.taking quoted_moves) fun _ _ _ => .offset_bind fun _ => .pure
      · exact .bind_left (.taking (expect_one rfl)) fun _ _ _ => .bind (.same blanks_ahead) fun _ _ _ =>
          .bind (.accept_bind (z := 0) (List.cons_ne_nil ']' _) (Nat.zero_le _) (fun _ _ => .pure)
            (.bind (listItems_agree top (hn.of (by omega))) fun _ _ _ => .bind (.same blanks_ahead) fun _ _ _ =>
              .bind (.same (expect_ahead _)) fun _ _ _ => .pure)) fun _ _ _ => .offset_bind fun _ => .pure
      · exact anonymous_agree top start (hn.of (by omega))
      · refine .bind_left (parenthesized_agree top (hn.of (by omega))) fun _ _ _ =>
          .bind (.same (startsWith_ahead _)) fun _ opened _ => ?_
        split
        · exact .bind (arguments_agree top (hn.of (by omega))) fun _ _ _ => .offset_bind fun _ => .pure
        · exact .offset_bind fun _ => .pure
      · split
        · exact named_agree top start (hn.of (by omega))
        · exact .fail
      · exact .fail
termination_by structural top => top

theorem named_agree : (top : Nat) → {ℓ n n' : Nat} → (start : Nat) → Enough top 1 ℓ n n' →
    Agree ℓ 1 (named n start) (named n' start)
  | 0, _, _, _, _, h => h.none.elim
  | top + 1, ℓ, _, _, start, h => by
      obtain ⟨n, n', rfl, rfl, hn⟩ := h.succ
      rw [named, named]
      refine .bind_left (.taking (name_moves tail_eq _)) fun _ name _ => .bind (.same (superDot_ahead _))
        fun _ inherited _ => ?_
      split
      · exact (inheritedCall_agree top start (hn.of (by omega))).lighter (Nat.zero_le _)
      refine .bind (.same (startsWith_ahead _)) fun _ opened _ => ?_
      split
      · split
        · exact .bind (parenthesized_agree top (hn.of (by omega))) fun _ _ _ => .offset_bind fun _ => .pure
        · exact .bind (arguments_agree top (hn.of (by omega))) fun _ _ _ => .offset_bind fun _ => .pure
      · exact .offset_bind fun _ => .pure
termination_by structural top => top

theorem parenthesized_agree : (top : Nat) → {ℓ n n' : Nat} → Enough top 1 ℓ n n' →
    Agree ℓ 1 (parenthesized n) (parenthesized n')
  | 0, _, _, _, h => h.none.elim
  | top + 1, ℓ, _, _, h => by
      obtain ⟨n, n', rfl, rfl, hn⟩ := h.succ
      rw [parenthesized, parenthesized]
      exact .bind_left (.taking (expect_one rfl)) fun _ _ _ => .bind (.same blanks_ahead) fun _ _ _ =>
        .bind (expression_agree top true (hn.of (by omega))) fun _ _ _ => .bind (.same blanks_ahead) fun _ _ _ =>
        .bind (.same (expect_ahead _)) fun _ _ _ => .pure
termination_by structural top => top

theorem arguments_agree : (top : Nat) → {ℓ n n' : Nat} → Enough top 1 ℓ n n' → Agree ℓ 1 (arguments n) (arguments n')
  | 0, _, _, _, h => h.none.elim
  | top + 1, ℓ, _, _, h => by
      obtain ⟨n, n', rfl, rfl, hn⟩ := h.succ
      rw [arguments, arguments]
      refine .bind_left (.taking (expect_one rfl)) fun _ _ _ => .bind (.same blanks_ahead) fun _ _ _ =>
        .accept_bind (z := 0) (List.cons_ne_nil ')' _) (Nat.zero_le _) (fun _ _ => .pure) <|
        .bind (z := 0) (.get_bind fun c => ?_) fun _ _ _ => .bind (.same blanks_ahead) fun _ _ _ =>
        .bind (.same (expect_ahead _)) fun _ _ _ => .pure
      split
      · exact .bind (namedArguments_agree top (hn.of (by omega))) fun _ _ _ => .pure
      · exact .bind (positionalArguments_agree top (hn.of (by omega))) fun _ _ _ => .pure
termination_by structural top => top

theorem namedArguments_agree : (top : Nat) → {ℓ n n' : Nat} → Enough top 1 ℓ n n' →
    Agree ℓ 0 (namedArguments n) (namedArguments n')
  | 0, _, _, _, h => h.none.elim
  | top + 1, ℓ, _, _, h => by
      obtain ⟨n, n', rfl, rfl, hn⟩ := h.succ
      rw [namedArguments, namedArguments]
      refine .get_bind fun c => ?_
      split
      · refine .offset_bind fun _ => .bind (.taking (name_moves tail_eq _)) fun _ _ _ => .offset_bind fun _ =>
          .bind (.same blanks_ahead) fun _ _ _ => .bind (.same (expect_ahead _)) fun _ _ _ =>
          .bind (.same blanks_ahead) fun _ _ _ => .bind (expression_agree top false (hn.of (by omega))) fun _ _ _ =>
          .bind (z := 0) (.bind (.same comma_ahead) fun _ found _ => ?_) fun _ _ _ => .pure
        split
        · exact namedArguments_agree top (hn.of (by omega))
        · exact .pure
      · exact .fail_bind
termination_by structural top => top

theorem positionalArguments_agree : (top : Nat) → {ℓ n n' : Nat} → Enough top 6 ℓ n n' →
    Agree ℓ 0 (positionalArguments n) (positionalArguments n')
  | 0, _, _, _, h => h.none.elim
  | top + 1, ℓ, _, _, h => by
      obtain ⟨n, n', rfl, rfl, hn⟩ := h.succ
      rw [positionalArguments, positionalArguments]
      refine .get_bind fun c => ?_
      split
      · exact .fail_bind
      · refine .bind (expression_agree top false hn) fun _ _ _ =>
          .bind (z := 0) (.bind (.same comma_ahead) fun _ found _ => ?_) fun _ _ _ => .pure
        split
        · exact positionalArguments_agree top (hn.of (by omega))
        · exact .pure
termination_by structural top => top

theorem listItems_agree : (top : Nat) → {ℓ n n' : Nat} → Enough top 6 ℓ n n' → Agree ℓ 0 (listItems n) (listItems n')
  | 0, _, _, _, h => h.none.elim
  | top + 1, ℓ, _, _, h => by
      obtain ⟨n, n', rfl, rfl, hn⟩ := h.succ
      rw [listItems, listItems]
      refine .bind (expression_agree top false hn) fun _ _ _ =>
        .bind (z := 0) (.bind (.same comma_ahead) fun _ found _ => ?_) fun _ _ _ => .pure
      split
      · exact listItems_agree top (hn.of (by omega))
      · exact .pure
termination_by structural top => top

theorem anonymous_agree : (top : Nat) → {ℓ n n' : Nat} → (start : Nat) → Enough top 1 ℓ n n' →
    Agree ℓ 1 (anonymous n start) (anonymous n' start)
  | 0, _, _, _, _, h => h.none.elim
  | top + 1, ℓ, _, _, start, h => by
      obtain ⟨n, n', rfl, rfl, hn⟩ := h.succ
      rw [anonymous, anonymous]
      exact .bind_left (.taking (expect_one rfl)) fun _ _ _ => .bind (.same parameter_ahead) fun _ _ _ =>
        .bind (body_agree top true (hn.of (by omega))) fun _ _ _ => .bind (.same (expect_ahead _)) fun _ _ _ =>
        .offset_bind fun _ => .pure
termination_by structural top => top

end

/-! ## Whole sources -/

theorem template_agree (h : Enough top 4 ℓ n n') : Agree ℓ 0 (template n) (template n') := by
  refine .bind (body_agree top false h) fun _ _ _ => .get_bind fun c => ?_
  split
  · exact .fail_bind
  · exact .pure

theorem loneExpression_agree (h : Enough top 5 ℓ n n') : Agree ℓ 0 (loneExpression n) (loneExpression n') :=
  .bind (.same blanks_ahead) fun _ _ _ => .bind (expression_agree top true (h.of (by omega))) fun _ _ _ =>
    .bind (.same blanks_ahead) fun _ _ _ => .pure

/-- A whole source is read as its first reader reads it. -/
theorem run_agree {reader : Nat → Reader α} {source : String}
    (h : Agree source.toList.length 0 (reader (16 * (source.toList.length + 1))) (reader n)) :
    run (fun _ => reader n) source = run reader source := by
  unfold run
  dsimp only
  rw [(h ⟨source.toList, 0⟩ (Nat.le_refl _)).1]

/-- The bound that reading starts with is never met: with more steps, sources are read in the same way, or refused for
the same fault at the same place. -/
theorem reading_unbounded {source : String} (hn : 16 * (source.toList.length + 1) ≤ n) :
    run (fun _ => template n) source = Element.readAll source ∧
      run (fun _ => loneExpression n) source = Expr.read source := by
  have henough : Enough n 5 source.toList.length (16 * (source.toList.length + 1)) n :=
    ⟨by omega, by omega, hn, Nat.le_refl n⟩
  exact ⟨run_agree (template_agree (henough.of (by omega))), run_agree (loneExpression_agree henough)⟩

end Reader

end Stencil
