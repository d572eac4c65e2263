import Stencil.Template.Reading
/-! Readers and where they come to. Whether a reader gives something or fails, the place that it comes to or
reports is not behind the place that it started from. -/

namespace Stencil

open Reader

namespace Reader

variable {α β : Type}

/-- Where a reader stops or fails is reached by going forward. -/
def Ahead (r : Reader α) : Prop := ∀ c,
  match r c with
  | .ok (_, d) => c.Forward d
  | .error f => ∃ d, c.Forward d ∧ f.offset = d.offset

namespace Ahead

variable {r : Reader α}

theorem forward (h : r.Ahead) {c d : Cursor} {a : α} (hr : r c = .ok (a, d)) : c.Forward d := by
  have hc := h c
  rwa [hr] at hc

theorem failure (h : r.Ahead) {c : Cursor} {f : Failure} (hr : r c = .error f) :
    ∃ d, c.Forward d ∧ f.offset = d.offset := by
  have hc := h c
  rwa [hr] at hc

/-- A reader that never fails. -/
theorem ofForward (h : ∀ c, ∃ a d, r c = .ok (a, d) ∧ c.Forward d) : r.Ahead := by
  intro c
  obtain ⟨a, d, hr, hd⟩ := h c
  rwa [hr]

theorem pure {a : α} : (pure a : Reader α).Ahead := fun c => .refl c

theorem fail {fault : Fault} : (Reader.fail fault : Reader α).Ahead := fun c => ⟨c, .refl c, rfl⟩

theorem bind {f : α → Reader β} (h : r.Ahead) (hf : ∀ a, (f a).Ahead) : (r >>= f).Ahead := by
  intro c
  change match r c >>= fun p => f p.1 p.2 with
    | .ok (_, d) => c.Forward d
    | .error e => ∃ d, c.Forward d ∧ e.offset = d.offset
  cases hr : r c with
  | error e => exact h.failure hr
  | ok p =>
    have hp := h.forward hr
    change match f p.1 p.2 with
      | .ok (_, d) => c.Forward d
      | .error e => ∃ d, c.Forward d ∧ e.offset = d.offset
    cases hx : f p.1 p.2 with
    | error e =>
      obtain ⟨d, hd, he⟩ := (hf p.1).failure hx
      exact ⟨d, hp.trans hd, he⟩
    | ok q => exact hp.trans ((hf p.1).forward hx)

/-- Nothing comes behind a failure. -/
theorem fail_bind {fault : Fault} {f : α → Reader β} : (Reader.fail fault >>= f).Ahead := fun c => ⟨c, .refl c, rfl⟩

theorem map {f : α → β} (h : r.Ahead) : (f <$> r).Ahead := by
  rw [← bind_pure_comp]
  exact h.bind fun _ => .pure

theorem get_bind {f : Cursor → Reader β} (h : ∀ c, (f c).Ahead) : ((get : Reader Cursor) >>= f).Ahead := fun c => h c c

theorem offset_bind {f : Nat → Reader β} (h : ∀ n, (f n).Ahead) : (Reader.offset >>= f).Ahead := fun c => h c.offset c

/-- What fails takes nothing. -/
theorem optional (h : r.Ahead) : (Reader.optional r).Ahead := by
  refine .ofForward fun c => ?_
  rw [Reader.optional]
  cases hr : r c with
  | error f => exact ⟨none, c, rfl, .refl c⟩
  | ok p => exact ⟨some p.1, p.2, rfl, h.forward hr⟩

end Ahead

/-! ## Readers that know no grammar -/

theorem startsWith_ahead (token : String) : (startsWith token).Ahead := fun c => .refl c

theorem peek?_ahead : peek?.Ahead := fun c => .refl c

theorem next?_ahead : next?.Ahead := by
  refine .ofForward fun c => ?_
  rw [next?]
  cases hc : c.rest with
  | nil => exact ⟨none, c, rfl, .refl c⟩
  | cons x rest => exact ⟨some x, _, rfl, forward_after hc⟩

theorem takeWhile_ahead (p : Char → Bool) : (takeWhile p).Ahead :=
  fun _ => forward_after List.takeWhile_append_dropWhile.symm

theorem accept_ahead (token : String) : (accept token).Ahead := by
  refine .ofForward fun c => ?_
  rw [accept]
  cases hc : c.past? token.toList with
  | none => exact ⟨false, c, rfl, .refl c⟩
  | some d => exact ⟨true, d, rfl, forward_past? hc⟩

theorem expect_ahead (token : String) : (expect token).Ahead := by
  refine .bind (accept_ahead token) fun found => ?_
  split
  · exact .pure
  · exact .fail

theorem blanks_ahead : blanks.Ahead := .bind (takeWhile_ahead _) fun _ => .pure

theorem name_ahead (fault : Fault) : (name fault).Ahead := by
  refine .bind peek?_ahead fun found => ?_
  split
  · split
    · exact .map (takeWhile_ahead _)
    · exact .fail
  · exact .fail

theorem propertyName_ahead : propertyName.Ahead := by
  refine .bind peek?_ahead fun found => ?_
  split
  · split
    · exact .map (takeWhile_ahead _)
    · exact name_ahead _
  · exact .fail

/-- Text that is not ended is reported where it starts. -/
theorem find_failure (stop : String) (fault : Fault) (start : Cursor) {f : Failure} : (cs : List Char) → (offset : Nat) →
    through.find stop fault start cs offset = .error f → f.offset = start.offset
  | [], _, h => by cases h; rfl
  | x :: rest, offset, h => by
      rw [through.find] at h
      split at h
      · cases h
      · exact find_failure stop fault start rest _ h

theorem through_ahead (stop : String) (fault : Fault) : (through stop fault).Ahead := by
  intro c
  cases hc : through stop fault c with
  | ok p => exact forward_find stop fault c c.rest c.offset hc
  | error f => exact ⟨c, .refl c, find_failure stop fault c c.rest c.offset hc⟩

theorem text_ahead (nested : Bool) : (text nested).Ahead := fun c => forward_literalText nested c.rest c.offset

/-- Quoted text that is not ended is reported where the source ends. -/
theorem quotedRest_failure (cs : List Char) (offset : Nat) {f : Failure} (h : quotedRest cs offset = .error f) :
    ∃ d, (Cursor.mk cs offset).Forward d ∧ f.offset = d.offset := by
  fun_induction quotedRest cs offset generalizing f with
  | case1 offset => cases h; exact ⟨_, .refl _, rfl⟩
  | case2 => cases h
  | case3 offset => cases h; exact ⟨_, forward_cons '\\' [] offset, rfl⟩
  | case4 c rest offset ih =>
    cases hq : quotedRest rest (offset + 1 + c.utf8Size) with
    | error e =>
      rw [hq] at h
      cases h
      obtain ⟨d, hd, he⟩ := ih hq
      exact ⟨d, (forward_cons '\\' _ offset).trans ((forward_cons c rest _).trans hd), he⟩
    | ok p => rw [hq] at h; cases h
  | case5 c rest offset _ _ _ ih =>
    cases hq : quotedRest rest (offset + c.utf8Size) with
    | error e =>
      rw [hq] at h
      cases h
      obtain ⟨d, hd, he⟩ := ih hq
      exact ⟨d, (forward_cons c rest offset).trans hd, he⟩
    | ok p => rw [hq] at h; cases h

theorem quoted_ahead : quoted.Ahead := by
  refine .bind (expect_ahead _) fun _ => .map fun c => ?_
  cases hc : quotedRest c.rest c.offset with
  | ok p => exact forward_quotedRest c.rest c.offset hc
  | error f => exact quotedRest_failure c.rest c.offset hc

theorem comment_ahead : comment.Ahead := .bind (expect_ahead _) fun _ => through_ahead _ _

theorem unicodeEscape_ahead : unicodeEscape.Ahead := by
  refine .bind (.ofForward fun c => ?_) fun digits => ?_
  · dsimp only
    split
    · exact ⟨_, _, rfl, forward_after (List.take_append_drop 4 c.rest).symm⟩
    · exact ⟨_, _, rfl, .refl c⟩
  · split
    · split
      · exact .pure
      · exact .fail
    · exact .fail

theorem escapes_ahead (n : Nat) : (escapes n).Ahead := by
  induction n with
  | zero => exact .fail
  | succ n ih =>
    refine .bind (startsWith_ahead _) fun stop => ?_
    split
    · exact .pure
    refine .bind (expect_ahead _) fun _ => .bind next?_ahead fun c => ?_
    split
    · refine .bind ?_ fun _ => .bind ih fun _ => .pure
      split
      · exact .pure
      · exact .pure
      · exact .pure
      · exact .pure
      · exact .pure
      · exact .bind unicodeEscape_ahead fun _ => .pure
      · exact .fail
    · exact .fail

theorem special_ahead : special.Ahead := by
  refine .bind (expect_ahead _) fun _ => .get_bind fun c => .bind (escapes_ahead _) fun _ =>
    .bind (expect_ahead _) fun _ => ?_
  split
  · exact .bind (accept_ahead _) fun _ => .bind (accept_ahead _) fun _ => .pure
  · exact .pure

theorem parameter_ahead : parameter.Ahead := by
  refine .bind (.optional <| .bind blanks_ahead fun _ => .bind (name_ahead _) fun _ => .bind blanks_ahead fun _ =>
    .bind (expect_ahead _) fun _ => .pure) fun found => ?_
  split
  · exact .bind (accept_ahead _) fun _ => .pure
  · exact .pure

theorem comma_ahead : comma.Ahead := by
  refine .bind blanks_ahead fun _ => .bind (accept_ahead _) fun found => ?_
  split
  · exact .bind blanks_ahead fun _ => .pure
  · exact .pure

theorem operator_ahead (token : String) : (operator token).Ahead :=
  .bind (.optional <| .bind blanks_ahead fun _ => .bind (expect_ahead _) fun _ => blanks_ahead) fun _ => .pure

theorem superDot_ahead (name : String) : (superDot name).Ahead := by
  unfold superDot
  split
  · exact accept_ahead _
  · exact .pure

/-! ## Trees -/

mutual

theorem elements_ahead : (n : Nat) → (nested : Bool) → (elements n nested).Ahead
  | 0, _ => by rw [elements]; exact .fail
  | n + 1, nested => by
      have hrest := elements_ahead n nested
      rw [elements]
      refine .get_bind fun c => ?_
      split
      · exact .pure
      split
      · exact .bind comment_ahead fun _ => hrest
      split
      · exact .bind special_ahead fun _ => .bind hrest fun _ => .pure
      split
      · exact .bind (choice_ahead n nested) fun _ => .bind hrest fun _ => .pure
      split
      · exact .bind (tag_ahead n) fun _ => .bind hrest fun _ => .pure
      · exact .bind (text_ahead nested) fun _ => .bind hrest fun _ => .pure

theorem body_ahead : (n : Nat) → (nested : Bool) → (body n nested).Ahead
  | 0, _ => by rw [body]; exact .fail
  | n + 1, nested => by rw [body]; exact .map (elements_ahead n nested)

theorem choice_ahead : (n : Nat) → (nested : Bool) → (choice n nested).Ahead
  | 0, _ => by rw [choice]; exact .fail
  | n + 1, nested => by
      rw [choice]
      refine .bind (branch_ahead n nested _) fun _ => .bind (branches_ahead n nested) fun _ =>
        .bind (.bind (accept_ahead _) fun found => ?_) fun _ => .bind (expect_ahead _) fun _ => .pure
      split
      · exact .bind (body_ahead n nested) fun _ => .pure
      · exact .pure

theorem branches_ahead : (n : Nat) → (nested : Bool) → (branches n nested).Ahead
  | 0, _ => by rw [branches]; exact .fail
  | n + 1, nested => by
      rw [branches]
      refine .bind (startsWith_ahead _) fun found => ?_
      split
      · exact .bind (branch_ahead n nested _) fun _ => .bind (branches_ahead n nested) fun _ => .pure
      · exact .pure

theorem branch_ahead : (n : Nat) → (nested : Bool) → (opening : String) → (branch n nested opening).Ahead
  | 0, _, _ => by rw [branch]; exact .fail
  | n + 1, nested, opening => by
      rw [branch]
      exact .offset_bind fun _ => .bind (expect_ahead _) fun _ => .bind blanks_ahead fun _ =>
        .bind (condition_ahead n) fun _ => .bind blanks_ahead fun _ => .bind (expect_ahead _) fun _ =>
        .offset_bind fun _ => .bind (body_ahead n nested) fun _ => .pure

theorem tag_ahead : (n : Nat) → (tag n).Ahead
  | 0 => by rw [tag]; exact .fail
  | n + 1 => by
      rw [tag]
      refine .offset_bind fun _ => .bind (expect_ahead _) fun _ => .bind blanks_ahead fun _ =>
        .bind (expression_ahead n true) fun _ => .bind blanks_ahead fun _ =>
        .bind (.bind (accept_ahead _) fun found => ?_) fun _ => .bind (expect_ahead _) fun _ =>
        .offset_bind fun _ => .pure
      split
      · exact options_ahead n
      · exact .pure

theorem options_ahead : (n : Nat) → (options n).Ahead
  | 0 => by rw [options]; exact .fail
  | n + 1 => by
      rw [options]
      refine .bind blanks_ahead fun _ => .offset_bind fun _ => .bind (name_ahead _) fun _ => .offset_bind fun _ =>
        .bind blanks_ahead fun _ => .bind (expect_ahead _) fun _ => .bind blanks_ahead fun _ =>
        .bind (expression_ahead n false) fun _ => .bind blanks_ahead fun _ =>
        .bind (.bind (accept_ahead _) fun found => ?_) fun _ => .pure
      split
      · exact options_ahead n
      · exact .pure

theorem condition_ahead : (n : Nat) → (condition n).Ahead
  | 0 => by rw [condition]; exact .fail
  | n + 1 => by rw [condition]; exact .bind (conjunction_ahead n) fun _ => disjuncts_ahead n _

theorem disjuncts_ahead : (n : Nat) → (left : Condition) → (disjuncts n left).Ahead
  | 0, _ => by rw [disjuncts]; exact .fail
  | n + 1, left => by
      rw [disjuncts]
      refine .bind (operator_ahead _) fun found => ?_
      split
      · exact .bind (conjunction_ahead n) fun _ => disjuncts_ahead n _
      · exact .pure

theorem conjunction_ahead : (n : Nat) → (conjunction n).Ahead
  | 0 => by rw [conjunction]; exact .fail
  | n + 1 => by rw [conjunction]; exact .bind (negation_ahead n) fun _ => conjuncts_ahead n _

theorem conjuncts_ahead : (n : Nat) → (left : Condition) → (conjuncts n left).Ahead
  | 0, _ => by rw [conjuncts]; exact .fail
  | n + 1, left => by
      rw [conjuncts]
      refine .bind (operator_ahead _) fun found => ?_
      split
      · exact .bind (negation_ahead n) fun _ => conjuncts_ahead n _
      · exact .pure

theorem negation_ahead : (n : Nat) → (negation n).Ahead
  | 0 => by rw [negation]; exact .fail
  | n + 1 => by
      have hvalue : (do return Condition.value (← expression n true) : Reader Condition).Ahead :=
        .bind (expression_ahead n true) fun _ => .pure
      rw [negation]
      refine .bind (accept_ahead _) fun negated => ?_
      split
      · exact .bind blanks_ahead fun _ => .bind (negation_ahead n) fun _ => .pure
      refine .bind (startsWith_ahead _) fun opened => ?_
      split
      · refine .bind (.optional <| .bind (expect_ahead _) fun _ => .bind blanks_ahead fun _ =>
          .bind (condition_ahead n) fun _ => .bind blanks_ahead fun _ => .bind (expect_ahead _) fun _ =>
          .get_bind fun c => ?_) fun found => ?_
        · split
          · exact .fail_bind
          · exact .pure
        · split
          · exact .pure
          · exact hvalue
      · exact hvalue

theorem expression_ahead : (n : Nat) → (roundRobin : Bool) → (expression n roundRobin).Ahead
  | 0, _ => by rw [expression]; exact .fail
  | n + 1, roundRobin => by
      rw [expression]
      exact .offset_bind fun _ => .bind (member_ahead n) fun _ => maps_ahead n roundRobin _ _

theorem maps_ahead : (n : Nat) → (roundRobin : Bool) → (start : Nat) → (target : Expr) →
    (maps n roundRobin start target).Ahead
  | 0, _, _, _ => by rw [maps]; exact .fail
  | n + 1, roundRobin, start, target => by
      rw [maps]
      refine .bind (operator_ahead _) fun found => ?_
      split
      · refine .bind (mapTarget_ahead n) fun _ => .bind ?_ fun _ => .offset_bind fun _ => maps_ahead n roundRobin _ _
        split
        · exact mapTargets_ahead n
        · exact .pure
      · exact .pure

theorem mapTargets_ahead : (n : Nat) → (mapTargets n).Ahead
  | 0 => by rw [mapTargets]; exact .fail
  | n + 1 => by
      rw [mapTargets]
      refine .bind (operator_ahead _) fun found => ?_
      split
      · exact .bind (mapTarget_ahead n) fun _ => .bind (mapTargets_ahead n) fun _ => .pure
      · exact .pure

theorem mapTarget_ahead : (n : Nat) → (mapTarget n).Ahead
  | 0 => by rw [mapTarget]; exact .fail
  | n + 1 => by
      rw [mapTarget]
      refine .offset_bind fun _ => .bind peek?_ahead fun c => ?_
      split
      · exact anonymous_ahead n _
      · exact .bind (parenthesized_ahead n) fun _ => .bind (arguments_ahead n) fun _ => .offset_bind fun _ => .pure
      · split
        · refine .bind (name_ahead _) fun _ => .bind (superDot_ahead _) fun inherited => ?_
          split
          · exact inheritedCall_ahead n _
          · exact .bind (arguments_ahead n) fun _ => .offset_bind fun _ => .pure
        · exact .fail
      · exact .fail

theorem inheritedCall_ahead : (n : Nat) → (start : Nat) → (inheritedCall n start).Ahead
  | 0, _ => by rw [inheritedCall]; exact .fail
  | n + 1, start => by
      rw [inheritedCall]
      exact .bind (name_ahead _) fun _ => .bind (arguments_ahead n) fun _ => .offset_bind fun _ => .pure

theorem member_ahead : (n : Nat) → (member n).Ahead
  | 0 => by rw [member]; exact .fail
  | n + 1 => by
      rw [member]
      exact .offset_bind fun _ => .bind (primary_ahead n) fun _ => properties_ahead n _ _

theorem properties_ahead : (n : Nat) → (start : Nat) → (target : Expr) → (properties n start target).Ahead
  | 0, _, _ => by rw [properties]; exact .fail
  | n + 1, start, target => by
      rw [properties]
      refine .bind (accept_ahead _) fun found => ?_
      split
      · refine .bind (startsWith_ahead _) fun opened => ?_
        split
        · exact .bind (parenthesized_ahead n) fun _ => .offset_bind fun _ => properties_ahead n _ _
        · exact .bind propertyName_ahead fun _ => .offset_bind fun _ => properties_ahead n _ _
      · exact .pure

theorem primary_ahead : (n : Nat) → (primary n).Ahead
  | 0 => by rw [primary]; exact .fail
  | n + 1 => by
      rw [primary]
      refine .offset_bind fun _ => .bind peek?_ahead fun c => ?_
      split
      · exact .bind quoted_ahead fun _ => .offset_bind fun _ => .pure
      · refine .bind (expect_ahead _) fun _ => .bind blanks_ahead fun _ =>
          .bind (.bind (accept_ahead _) fun found => ?_) fun _ => .offset_bind fun _ => .pure
        split
        · exact .pure
        · exact .bind (listItems_ahead n) fun _ => .bind blanks_ahead fun _ => .bind (expect_ahead _) fun _ => .pure
      · exact anonymous_ahead n _
      · refine .bind (parenthesized_ahead n) fun _ => .bind (startsWith_ahead _) fun opened => ?_
        split
        · exact .bind (arguments_ahead n) fun _ => .offset_bind fun _ => .pure
        · exact .offset_bind fun _ => .pure
      · split
        · exact named_ahead n _
        · exact .fail
      · exact .fail

theorem named_ahead : (n : Nat) → (start : Nat) → (named n start).Ahead
  | 0, _ => by rw [named]; exact .fail
  | n + 1, start => by
      rw [named]
      refine .bind (name_ahead _) fun name => .bind (superDot_ahead _) fun inherited => ?_
      split
      · exact inheritedCall_ahead n _
      refine .bind (startsWith_ahead _) fun opened => ?_
      split
      · split
        · exact .bind (parenthesized_ahead n) fun _ => .offset_bind fun _ => .pure
        · exact .bind (arguments_ahead n) fun _ => .offset_bind fun _ => .pure
      · exact .offset_bind fun _ => .pure

theorem parenthesized_ahead : (n : Nat) → (parenthesized n).Ahead
  | 0 => by rw [parenthesized]; exact .fail
  | n + 1 => by
      rw [parenthesized]
      exact .bind (expect_ahead _) fun _ => .bind blanks_ahead fun _ => .bind (expression_ahead n true) fun _ =>
        .bind blanks_ahead fun _ => .bind (expect_ahead _) fun _ => .pure

theorem arguments_ahead : (n : Nat) → (arguments n).Ahead
  | 0 => by rw [arguments]; exact .fail
  | n + 1 => by
      rw [arguments]
      refine .bind (expect_ahead _) fun _ => .bind blanks_ahead fun _ => .bind (accept_ahead _) fun closed => ?_
      split
      · exact .pure
      · refine .bind (.get_bind fun c => ?_) fun _ => .bind blanks_ahead fun _ => .bind (expect_ahead _) fun _ => .pure
        split
        · exact .bind (namedArguments_ahead n) fun _ => .pure
        · exact .bind (positionalArguments_ahead n) fun _ => .pure

theorem namedArguments_ahead : (n : Nat) → (namedArguments n).Ahead
  | 0 => by rw [namedArguments]; exact .fail
  | n + 1 => by
      rw [namedArguments]
      refine .get_bind fun c => ?_
      split
      · refine .offset_bind fun _ => .bind (name_ahead _) fun _ => .offset_bind fun _ => .bind blanks_ahead fun _ =>
          .bind (expect_ahead _) fun _ => .bind blanks_ahead fun _ => .bind (expression_ahead n false) fun _ =>
          .bind (.bind comma_ahead fun found => ?_) fun _ => .pure
        split
        · exact namedArguments_ahead n
        · exact .pure
      · exact .fail_bind

theorem positionalArguments_ahead : (n : Nat) → (positionalArguments n).Ahead
  | 0 => by rw [positionalArguments]; exact .fail
  | n + 1 => by
      rw [positionalArguments]
      refine .get_bind fun c => ?_
      split
      · exact .fail_bind
      · refine .bind (expression_ahead n false) fun _ => .bind (.bind comma_ahead fun found => ?_) fun _ => .pure
        split
        · exact positionalArguments_ahead n
        · exact .pure

theorem listItems_ahead : (n : Nat) → (listItems n).Ahead
  | 0 => by rw [listItems]; exact .fail
  | n + 1 => by
      rw [listItems]
      refine .bind (expression_ahead n false) fun _ => .bind (.bind comma_ahead fun found => ?_) fun _ => .pure
      split
      · exact listItems_ahead n
      · exact .pure

theorem anonymous_ahead : (n : Nat) → (start : Nat) → (anonymous n start).Ahead
  | 0, _ => by rw [anonymous]; exact .fail
  | n + 1, start => by
      rw [anonymous]
      exact .bind (expect_ahead _) fun _ => .bind parameter_ahead fun _ => .bind (body_ahead n true) fun _ =>
        .bind (expect_ahead _) fun _ => .offset_bind fun _ => .pure

end

theorem template_ahead (n : Nat) : (template n).Ahead := by
  refine .bind (body_ahead n false) fun _ => .get_bind fun c => ?_
  split
  · exact .fail_bind
  · exact .pure

theorem loneExpression_ahead (n : Nat) : (loneExpression n).Ahead :=
  .bind blanks_ahead fun _ => .bind (expression_ahead n true) fun _ => .bind blanks_ahead fun _ => .pure

end Reader

end Stencil
