import Stencil.Template.Proper
import Stencil.Template.Reader
/-! What readers give: they only go forward, so that every region that is read lies in the source, and
the trees that they give are proper. -/

namespace Stencil

namespace Cursor

/-- A place that is reached by going forward. -/
def Forward (c d : Cursor) : Prop :=
  ∃ taken, c.rest = taken ++ d.rest ∧ d.offset = c.offset + Text.byteLength taken

/-- A place in a source, at or behind the character that starts at a byte. -/
def Since (source : String) (start : Nat) (c : Cursor) : Prop :=
  ∃ before inside, source.toList = before ++ (inside ++ c.rest) ∧ start = Text.byteLength before ∧
    c.offset = start + Text.byteLength inside

/-- A place in a source, behind all the marks. -/
def Placed (source : String) (marks : List Nat) (c : Cursor) : Prop :=
  c.Since source c.offset ∧ ∀ start ∈ marks, c.Since source start

variable {source : String} {marks : List Nat} {c d e : Cursor}

theorem Forward.refl (c : Cursor) : c.Forward c := ⟨[], rfl, rfl⟩

theorem Forward.trans (h : c.Forward d) (h' : d.Forward e) : c.Forward e := by
  obtain ⟨taken, hr, ho⟩ := h
  obtain ⟨more, hr', ho'⟩ := h'
  exact ⟨taken ++ more, by rw [hr, hr', List.append_assoc],
    by rw [ho', ho, Text.byteLength_append, Nat.add_assoc]⟩

theorem Since.forward {start : Nat} (h : c.Since source start) (hd : c.Forward d) :
    d.Since source start := by
  obtain ⟨before, inside, hs, hb, ho⟩ := h
  obtain ⟨taken, hr, hd⟩ := hd
  exact ⟨before, inside ++ taken, by rw [hs, hr, List.append_assoc], hb,
    by rw [hd, ho, Text.byteLength_append, Nat.add_assoc]⟩

theorem Since.here {start : Nat} (h : c.Since source start) : c.Since source c.offset := by
  obtain ⟨before, inside, hs, hb, ho⟩ := h
  exact ⟨before ++ inside, [], by rw [hs, List.append_assoc, List.nil_append],
    by rw [ho, hb, Text.byteLength_append], rfl⟩

theorem Since.within {start : Nat} (h : c.Since source start) :
    (Span.between start c.offset).Within source := by
  obtain ⟨before, inside, hs, hb, ho⟩ := h
  exact ⟨before, inside, c.rest, hs, hb, by rw [Span.between, ho, Nat.add_sub_cancel_left]⟩

theorem Placed.forward (h : c.Placed source marks) (hd : c.Forward d) : d.Placed source marks :=
  ⟨(h.1.forward hd).here, fun start hm => (h.2 start hm).forward hd⟩

end Cursor

namespace Reader

variable {α β : Type} {source : String} {marks : List Nat} {P : α → Prop} {Q : β → Prop}

/-- A reader that goes forward in a source and gives only what `Q` admits. -/
def Keeps (source : String) (marks : List Nat) (Q : α → Prop) (r : Reader α) : Prop :=
  ∀ c a d, c.Placed source marks → r c = .ok (a, d) → d.Placed source marks ∧ Q a

namespace Keeps

theorem ofForward {r : Reader α} (h : ∀ c a d, r c = .ok (a, d) → c.Forward d) :
    Keeps source marks (fun _ => True) r :=
  fun c a d hc hr => ⟨hc.forward (h c a d hr), trivial⟩

theorem pure {b : β} (h : Q b) : Keeps source marks Q (pure b : Reader β) := by
  intro c a d hc hr
  cases hr
  exact ⟨hc, h⟩

theorem fail {fault : Fault} : Keeps source marks Q (fail fault : Reader β) := nofun

theorem bind {r : Reader α} {f : α → Reader β} (h : Keeps source marks P r)
    (hf : ∀ a, P a → Keeps source marks Q (f a)) : Keeps source marks Q (r >>= f) := by
  intro c b d hc hr
  cases hx : r c with
  | error e =>
    change (r c >>= fun p => f p.1 p.2) = _ at hr
    rw [hx] at hr
    cases hr
  | ok p =>
    change (r c >>= fun p => f p.1 p.2) = _ at hr
    rw [hx] at hr
    obtain ⟨hp, ha⟩ := h c p.1 p.2 hc hx
    exact hf p.1 ha p.2 b d hp hr

theorem mono {R : α → Prop} {r : Reader α} (h : Keeps source marks P r) (hP : ∀ a, P a → R a) :
    Keeps source marks R r :=
  fun c a d hc hr => ⟨(h c a d hc hr).1, hP a (h c a d hc hr).2⟩

/-- Asking for the offset makes a mark. What lies between an earlier mark and here is in the source. -/
theorem offset_bind {f : Nat → Reader β}
    (h : ∀ stop, (∀ start ∈ marks, (Span.between start stop).Within source) →
      Keeps source (stop :: marks) Q (f stop)) : Keeps source marks Q (offset >>= f) := by
  intro c b d hc hr
  obtain ⟨hd, hq⟩ := h c.offset (fun start hm => (hc.2 start hm).within) c b d
    ⟨hc.1, fun start hm => by
      rcases List.mem_cons.mp hm with rfl | hm
      · exact hc.1
      · exact hc.2 start hm⟩ hr
  exact ⟨⟨hd.1, fun start hm => hd.2 start (List.mem_cons_of_mem _ hm)⟩, hq⟩

theorem get_bind {f : Cursor → Reader β} (h : ∀ c, Keeps source marks Q (f c)) :
    Keeps source marks Q ((get : Reader Cursor) >>= f) :=
  fun c b d hc hr => h c c b d hc hr

theorem optional {r : Reader α} (h : Keeps source marks P r) :
    Keeps source marks (fun o => ∀ a ∈ o, P a) (Reader.optional r) := by
  intro c o d hc hr
  unfold Reader.optional at hr
  cases hx : r c with
  | error e =>
    rw [hx] at hr
    cases hr
    exact ⟨hc, nofun⟩
  | ok p =>
    rw [hx] at hr
    cases hr
    obtain ⟨hp, ha⟩ := h c p.1 p.2 hc hx
    exact ⟨hp, fun a h => by cases h; exact ha⟩

end Keeps

/-! ## Readers that know no grammar -/

theorem forward_after {c : Cursor} {taken rest : List Char} (h : c.rest = taken ++ rest) :
    c.Forward (c.after taken rest) :=
  ⟨taken, h, rfl⟩

theorem forward_cons (c : Char) (rest : List Char) (offset : Nat) :
    (Cursor.mk (c :: rest) offset).Forward ⟨rest, offset + c.utf8Size⟩ :=
  ⟨[c], rfl, rfl⟩

theorem forward_past? {token : List Char} {c d : Cursor} (h : c.past? token = some d) : c.Forward d := by
  unfold Cursor.past? at h
  split at h
  · cases h
    rename_i hp
    exact forward_after (List.prefix_iff_eq_append.mp (List.isPrefixOf_iff_prefix.mp hp)).symm
  · cases h

theorem startsWith_keeps (token : String) : Keeps source marks (fun _ => True) (startsWith token) :=
  .ofForward fun c _ _ h => by cases h; exact .refl c

theorem peek?_keeps : Keeps source marks (fun _ => True) peek? :=
  .ofForward fun c _ _ h => by cases h; exact .refl c

theorem next?_keeps : Keeps source marks (fun _ => True) next? :=
  .ofForward fun c _ _ h => by
    unfold next? at h
    split at h
    · cases h; exact .refl c
    · cases h; exact forward_after ‹_›

theorem takeWhile_keeps (p : Char → Bool) : Keeps source marks (fun _ => True) (takeWhile p) :=
  .ofForward fun c _ _ h => by
    cases h
    exact forward_after (List.takeWhile_append_dropWhile).symm

theorem accept_keeps (token : String) : Keeps source marks (fun _ => True) (accept token) :=
  .ofForward fun c _ _ h => by
    unfold accept at h
    split at h
    · cases h; exact forward_past? ‹_›
    · cases h; exact .refl c

theorem expect_keeps (token : String) : Keeps source marks (fun _ => True) (expect token) := by
  refine .bind (accept_keeps token) fun found _ => ?_
  split
  · exact .pure trivial
  · exact .fail

theorem blanks_keeps : Keeps source marks (fun _ => True) blanks :=
  .bind (takeWhile_keeps _) fun _ _ => .pure trivial

theorem name_keeps (fault : Fault) : Keeps source marks (isName · = true) (name fault) := by
  have hforward : Keeps source marks (fun _ => True) (name fault) := by
    refine .bind peek?_keeps fun found _ => ?_
    split
    · split
      · exact .bind (takeWhile_keeps _) fun _ _ => .pure trivial
      · exact .fail
    · exact .fail
  intro c s d hc hr
  refine ⟨(hforward c s d hc hr).1, ?_⟩
  obtain ⟨rest, offset⟩ := c
  cases rest with
  | nil => cases hr
  | cons x rest =>
    change (if startsName x then String.ofList <$> takeWhile continuesName else fail fault) _ = _ at hr
    split at hr
    · rename_i hx
      cases hr
      simp [isName, continuesName_of_startsName hx, hx]
    · cases hr

theorem propertyName_keeps : Keeps source marks (fun _ => True) propertyName := by
  refine .bind peek?_keeps fun found _ => ?_
  split
  · split
    · exact .bind (takeWhile_keeps _) fun _ _ => .pure trivial
    · exact .mono (name_keeps _) fun _ _ => trivial
  · exact .fail

theorem forward_find (stop : String) (fault : Fault) (start : Cursor) : (cs : List Char) → (offset : Nat) →
    {u : Unit} → {d : Cursor} → through.find stop fault start cs offset = .ok (u, d) →
    (Cursor.mk cs offset).Forward d
  | [], _, _, _, h => by simp [through.find] at h
  | x :: rest, offset, _, _, h => by
      rw [through.find] at h
      split at h
      · cases h; exact forward_past? ‹_›
      · exact .trans (forward_cons x rest offset) (forward_find stop fault start rest _ h)

theorem through_keeps (stop : String) (fault : Fault) :
    Keeps source marks (fun _ => True) (through stop fault) :=
  .ofForward fun c _ _ h => forward_find stop fault c c.rest c.offset h

/-! ## Literal text, quoted text, comments and escapes -/

theorem forward_literalText (nested : Bool) (cs : List Char) (offset : Nat) :
    (Cursor.mk cs offset).Forward (literalText nested cs offset).2 := by
  fun_induction literalText nested cs offset with
  | case1 => exact .refl _
  | case2 => exact .refl _
  | case3 => exact forward_cons '\\' [] _
  | case4 offset d more hd text after he _ ih =>
    rw [he] at ih
    have hs : d.utf8Size = 1 := by
      simp only [Bool.or_eq_true, decide_eq_true_eq] at hd
      rcases hd with ((rfl | rfl) | rfl) | rfl <;> rfl
    have hd := forward_cons d more (offset + 1)
    rw [hs] at hd
    exact (forward_cons '\\' _ offset).trans (hd.trans ih)
  | case5 offset d more _ text after he _ ih =>
    rw [he] at ih
    exact (forward_cons '\\' _ offset).trans ih
  | case6 c rest offset _ _ text after he ih =>
    rw [he] at ih
    exact (forward_cons c _ offset).trans ih

theorem text_keeps (nested : Bool) : Keeps source marks (fun _ => True) (text nested) :=
  .ofForward fun c _ _ h => by
    cases h
    exact forward_literalText nested c.rest c.offset

theorem forward_quotedRest (cs : List Char) (offset : Nat) {t : List Char} {d : Cursor}
    (h : quotedRest cs offset = .ok (t, d)) : (Cursor.mk cs offset).Forward d := by
  fun_induction quotedRest cs offset generalizing t d with
  | case1 => cases h
  | case2 rest offset =>
    cases h
    exact forward_cons '"' rest offset
  | case3 => cases h
  | case4 c rest offset ih =>
    cases hq : quotedRest rest (offset + 1 + c.utf8Size) with
    | error e => rw [hq] at h; cases h
    | ok p =>
      rw [hq] at h
      cases h
      exact (forward_cons '\\' _ offset).trans ((forward_cons c rest _).trans (ih hq))
  | case5 c rest offset _ _ _ ih =>
    cases hq : quotedRest rest (offset + c.utf8Size) with
    | error e => rw [hq] at h; cases h
    | ok p =>
      rw [hq] at h
      cases h
      exact (forward_cons c rest offset).trans (ih hq)

theorem quoted_keeps : Keeps source marks (fun _ => True) quoted :=
  .bind (expect_keeps _) fun _ _ =>
    .bind (P := fun _ => True) (.ofForward fun c _ _ h => forward_quotedRest c.rest c.offset h)
      fun _ _ => .pure trivial

theorem comment_keeps : Keeps source marks (fun _ => True) comment :=
  .bind (expect_keeps _) fun _ _ => through_keeps _ _

theorem unicodeEscape_keeps : Keeps source marks (fun _ => True) unicodeEscape := by
  refine .bind (P := fun _ => True) (.ofForward fun c _ _ h => ?_) fun digits _ => ?_
  · dsimp only at h
    split at h
    · cases h; exact forward_after (List.take_append_drop 4 c.rest).symm
    · cases h; exact .refl c
  · split
    · split
      · exact .pure trivial
      · exact .fail
    · exact .fail

theorem escapes_keeps : (n : Nat) → Keeps source marks (fun _ => True) (escapes n)
  | 0 => .fail
  | n + 1 => by
      refine .bind (startsWith_keeps _) fun stop _ => ?_
      split
      · exact .pure trivial
      refine .bind (expect_keeps _) fun _ _ => .bind next?_keeps fun c _ => ?_
      split
      · refine .bind (P := fun _ => True) ?_ fun _ _ =>
          .bind (escapes_keeps n) fun _ _ => .pure trivial
        split
        · exact .pure trivial
        · exact .pure trivial
        · exact .pure trivial
        · exact .pure trivial
        · exact .pure trivial
        · exact .bind unicodeEscape_keeps fun _ _ => .pure trivial
        · exact .fail
      · exact .fail

theorem special_keeps : Keeps source marks (fun _ => True) special := by
  refine .bind (expect_keeps _) fun _ _ => .get_bind fun c => .bind (escapes_keeps _) fun _ _ =>
    .bind (expect_keeps _) fun _ _ => ?_
  split
  · exact .bind (accept_keeps _) fun _ _ => .bind (accept_keeps _) fun _ _ => .pure trivial
  · exact .pure trivial

theorem parameter_keeps : Keeps source marks (fun _ => True) parameter := by
  refine .bind (P := fun _ => True) (.mono (.optional (P := fun _ => True) ?_) fun _ _ => trivial)
    fun found _ => ?_
  · exact .bind blanks_keeps fun _ _ => .bind (name_keeps _) fun _ _ =>
      .bind blanks_keeps fun _ _ => .bind (expect_keeps _) fun _ _ => .pure trivial
  · split
    · exact .bind (accept_keeps _) fun _ _ => .pure trivial
    · exact .pure trivial

theorem comma_keeps : Keeps source marks (fun _ => True) comma := by
  refine .bind blanks_keeps fun _ _ => .bind (accept_keeps _) fun found _ => ?_
  split
  · exact .bind blanks_keeps fun _ _ => .pure trivial
  · exact .pure trivial

theorem operator_keeps (token : String) : Keeps source marks (fun _ => True) (operator token) :=
  .bind (P := fun _ => True) (.mono (.optional (P := fun _ => True) (.bind blanks_keeps fun _ _ =>
    .bind (expect_keeps _) fun _ _ => blanks_keeps)) fun _ _ => trivial) fun _ _ => .pure trivial

theorem superDot_keeps (name : String) : Keeps source marks (fun _ => True) (superDot name) := by
  unfold superDot
  split
  · exact accept_keeps _
  · exact .pure trivial

/-! ## Trees -/

/-- An expression that is proper and stands for a template. -/
abbrev IsMapTarget (source : String) (e : Expr) : Prop := e.Proper (Span.Within source) ∧ e.IsTemplate

theorem properAll_of_forall {es : List Expr} (h : ∀ e ∈ es, IsMapTarget source e) :
    Expr.ProperAll (Span.Within source) es ∧ ∀ e ∈ es, e.IsTemplate := by
  refine ⟨?_, fun e he => (h e he).2⟩
  induction es with
  | nil => trivial
  | cons e es ih =>
    exact ⟨(h e List.mem_cons_self).1, ih fun e he => h e (List.mem_cons_of_mem _ he)⟩

mutual

theorem elements_keeps {marks : List Nat} : (n : Nat) → (nested : Bool) →
    Keeps source marks (Element.ProperAll (Span.Within source)) (elements n nested)
  | 0, _ => by rw [elements]; exact .fail
  | n + 1, nested => by
      rw [elements]
      refine .get_bind fun c => ?_
      split
      · exact .pure trivial
      split
      · exact .bind comment_keeps fun _ _ => elements_keeps n nested
      split
      · exact .bind special_keeps fun _ _ => .bind (elements_keeps n nested) fun _ h =>
          .pure ⟨trivial, h⟩
      split
      · exact .bind (choice_keeps n nested) fun _ he => .bind (elements_keeps n nested) fun _ h =>
          .pure ⟨he, h⟩
      split
      · exact .bind (tag_keeps n) fun _ he => .bind (elements_keeps n nested) fun _ h =>
          .pure ⟨he, h⟩
      · exact .bind (text_keeps nested) fun _ _ => .bind (elements_keeps n nested) fun _ h =>
          .pure ⟨trivial, h⟩
termination_by structural n => n

theorem body_keeps {marks : List Nat} : (n : Nat) → (nested : Bool) →
    Keeps source marks (Element.ProperAll (Span.Within source)) (body n nested)
  | 0, _ => by rw [body]; exact .fail
  | n + 1, nested => by
      rw [body]
      exact .bind (elements_keeps n nested) fun _ h => .pure h.joinTexts
termination_by structural n => n

theorem choice_keeps {marks : List Nat} : (n : Nat) → (nested : Bool) →
    Keeps source marks (Element.Proper (Span.Within source)) (choice n nested)
  | 0, _ => by rw [choice]; exact .fail
  | n + 1, nested => by
      rw [choice]
      refine .bind (branch_keeps n nested _) fun first hf => .bind (branches_keeps n nested)
        fun more hm => .bind (P := fun o => ∀ b ∈ o, Element.ProperAll (Span.Within source) b)
          (.bind (accept_keeps _) fun found _ => ?_) fun otherwise ho =>
            .bind (expect_keeps _) fun _ _ => .pure (.choice (.cons hf hm) ho)
      · split
        · exact .bind (body_keeps n nested) fun b hb => .pure fun _ h => by cases h; exact hb
        · exact .pure nofun
termination_by structural n => n

theorem branches_keeps {marks : List Nat} : (n : Nat) → (nested : Bool) →
    Keeps source marks (Branch.ProperAll (Span.Within source)) (branches n nested)
  | 0, _ => by rw [branches]; exact .fail
  | n + 1, nested => by
      rw [branches]
      refine .bind (startsWith_keeps _) fun found _ => ?_
      split
      · exact .bind (branch_keeps n nested _) fun _ hf => .bind (branches_keeps n nested)
          fun _ hm => .pure (.cons hf hm)
      · exact .pure trivial
termination_by structural n => n

theorem branch_keeps {marks : List Nat} : (n : Nat) → (nested : Bool) → (opening : String) →
    Keeps source marks (fun b => b.condition.Proper (Span.Within source) ∧
      Element.ProperAll (Span.Within source) b.body ∧ b.span.Within source) (branch n nested opening)
  | 0, _, _ => by rw [branch]; exact .fail
  | n + 1, nested, opening => by
      rw [branch]
      refine .offset_bind fun start _ => .bind (expect_keeps _) fun _ _ => .bind blanks_keeps
        fun _ _ => .bind (condition_keeps n) fun _ hc => .bind blanks_keeps fun _ _ =>
        .bind (expect_keeps _) fun _ _ => .offset_bind fun stop hs => .bind (body_keeps n nested)
        fun _ hb => .pure ⟨hc, hb, hs start List.mem_cons_self⟩
termination_by structural n => n

theorem tag_keeps {marks : List Nat} : (n : Nat) →
    Keeps source marks (Element.Proper (Span.Within source)) (tag n)
  | 0 => by rw [tag]; exact .fail
  | n + 1 => by
      rw [tag]
      refine .offset_bind fun start _ => .bind (expect_keeps _) fun _ _ => .bind blanks_keeps
        fun _ _ => .bind (expression_keeps n true) fun _ hv => .bind blanks_keeps fun _ _ =>
        .bind (P := TagOption.ProperAll (Span.Within source))
          (.bind (accept_keeps _) fun found _ => ?_) fun _ ho => .bind (expect_keeps _) fun _ _ =>
          .offset_bind fun stop hs => .pure ⟨hv, ho, hs start List.mem_cons_self⟩
      split
      · exact options_keeps n
      · exact .pure trivial
termination_by structural n => n

theorem options_keeps {marks : List Nat} : (n : Nat) →
    Keeps source marks (TagOption.ProperAll (Span.Within source)) (options n)
  | 0 => by rw [options]; exact .fail
  | n + 1 => by
      rw [options]
      refine .bind blanks_keeps fun _ _ => .offset_bind fun start _ => .bind (name_keeps _)
        fun _ hn => .offset_bind fun stop hs => .bind blanks_keeps fun _ _ => .bind (expect_keeps _)
        fun _ _ => .bind blanks_keeps fun _ _ => .bind (expression_keeps n false) fun _ hv =>
        .bind blanks_keeps fun _ _ => .bind (P := TagOption.ProperAll (Span.Within source))
          (.bind (accept_keeps _) fun found _ => ?_) fun _ hm =>
          .pure ⟨hv, hs start List.mem_cons_self, hm, hn⟩
      split
      · exact options_keeps n
      · exact .pure trivial
termination_by structural n => n

theorem condition_keeps {marks : List Nat} : (n : Nat) →
    Keeps source marks (Condition.Proper (Span.Within source)) (condition n)
  | 0 => by rw [condition]; exact .fail
  | n + 1 => by
      rw [condition]
      exact .bind (conjunction_keeps n) fun _ h => disjuncts_keeps n _ h
termination_by structural n => n

theorem disjuncts_keeps {marks : List Nat} : (n : Nat) → (left : Condition) →
    left.Proper (Span.Within source) →
    Keeps source marks (Condition.Proper (Span.Within source)) (disjuncts n left)
  | 0, _, _ => by rw [disjuncts]; exact .fail
  | n + 1, left, hl => by
      rw [disjuncts]
      refine .bind (operator_keeps _) fun found _ => ?_
      split
      · exact .bind (conjunction_keeps n) fun _ hr => disjuncts_keeps n _ ⟨hl, hr⟩
      · exact .pure hl
termination_by structural n => n

theorem conjunction_keeps {marks : List Nat} : (n : Nat) →
    Keeps source marks (Condition.Proper (Span.Within source)) (conjunction n)
  | 0 => by rw [conjunction]; exact .fail
  | n + 1 => by
      rw [conjunction]
      exact .bind (negation_keeps n) fun _ h => conjuncts_keeps n _ h
termination_by structural n => n

theorem conjuncts_keeps {marks : List Nat} : (n : Nat) → (left : Condition) →
    left.Proper (Span.Within source) →
    Keeps source marks (Condition.Proper (Span.Within source)) (conjuncts n left)
  | 0, _, _ => by rw [conjuncts]; exact .fail
  | n + 1, left, hl => by
      rw [conjuncts]
      refine .bind (operator_keeps _) fun found _ => ?_
      split
      · exact .bind (negation_keeps n) fun _ hr => conjuncts_keeps n _ ⟨hl, hr⟩
      · exact .pure hl
termination_by structural n => n

theorem negation_keeps {marks : List Nat} : (n : Nat) →
    Keeps source marks (Condition.Proper (Span.Within source)) (negation n)
  | 0 => by rw [negation]; exact .fail
  | n + 1 => by
      rw [negation]
      refine .bind (accept_keeps _) fun found _ => ?_
      split
      · exact .bind blanks_keeps fun _ _ => .bind (negation_keeps n) fun _ h => .pure h
      have plain : Keeps source marks (Condition.Proper (Span.Within source))
          (do return .value (← expression n true)) :=
        .bind (expression_keeps n true) fun _ h => .pure h
      refine .bind (startsWith_keeps _) fun opened _ => ?_
      split
      · refine .bind (.optional (P := Condition.Proper (Span.Within source)) (.bind (expect_keeps _)
          fun _ _ => .bind blanks_keeps fun _ _ => .bind (condition_keeps n) fun inner hi =>
          .bind blanks_keeps fun _ _ => .bind (expect_keeps _) fun _ _ => .get_bind fun c => ?_))
          fun found hf => ?_
        · split
          · exact .bind (P := fun _ => False) .fail nofun
          · exact .pure hi
        · split
          · exact .pure (hf _ rfl)
          · exact plain
      · exact plain
termination_by structural n => n

theorem expression_keeps {marks : List Nat} : (n : Nat) → (roundRobin : Bool) →
    Keeps source marks (Expr.Proper (Span.Within source)) (expression n roundRobin)
  | 0, _ => by rw [expression]; exact .fail
  | n + 1, roundRobin => by
      rw [expression]
      exact .offset_bind fun _ _ => .bind (member_keeps n) fun _ h =>
          maps_keeps n roundRobin _ List.mem_cons_self _ h
termination_by structural n => n

theorem maps_keeps {marks : List Nat} : (n : Nat) → (roundRobin : Bool) → (start : Nat) →
    start ∈ marks → (target : Expr) → target.Proper (Span.Within source) →
    Keeps source marks (Expr.Proper (Span.Within source)) (maps n roundRobin start target)
  | 0, _, _, _, _, _ => by rw [maps]; exact .fail
  | n + 1, roundRobin, start, hm, target, ht => by
      rw [maps]
      refine .bind (operator_keeps _) fun found _ => ?_
      split
      · refine .bind (mapTarget_keeps n) fun first hf =>
          .bind (P := fun es => ∀ e ∈ es, IsMapTarget source e) ?_ fun more hmore => ?_
        · split
          · exact mapTargets_keeps n
          · exact .pure nofun
        · have hall := properAll_of_forall (List.forall_mem_cons.mpr ⟨hf, hmore⟩)
          exact .offset_bind fun stop hs => maps_keeps n roundRobin start
            (List.mem_cons_of_mem _ hm) _ ⟨ht, hall.1, hall.2, hs start hm⟩
      · exact .pure ht
termination_by structural n => n

theorem mapTargets_keeps {marks : List Nat} : (n : Nat) →
    Keeps source marks (fun es => ∀ e ∈ es, IsMapTarget source e) (mapTargets n)
  | 0 => by rw [mapTargets]; exact .fail
  | n + 1 => by
      rw [mapTargets]
      refine .bind (operator_keeps _) fun found _ => ?_
      split
      · exact .bind (mapTarget_keeps n) fun _ hf => .bind (mapTargets_keeps n) fun _ hm =>
          .pure (List.forall_mem_cons.mpr ⟨hf, hm⟩)
      · exact .pure nofun
termination_by structural n => n

theorem mapTarget_keeps {marks : List Nat} : (n : Nat) →
    Keeps source marks (IsMapTarget source) (mapTarget n)
  | 0 => by rw [mapTarget]; exact .fail
  | n + 1 => by
      rw [mapTarget]
      refine .offset_bind fun start _ => .bind peek?_keeps fun c _ => ?_
      split
      · exact anonymous_keeps n _ List.mem_cons_self
      · exact .bind (parenthesized_keeps n) fun _ hn => .bind (arguments_keeps n) fun _ ha =>
          .offset_bind fun stop hs => .pure ⟨⟨hn, ha, hs start List.mem_cons_self⟩, trivial⟩
      · split
        · refine .bind (name_keeps _) fun _ hn => .bind (superDot_keeps _) fun inherited _ => ?_
          split
          · exact inheritedCall_keeps n _ List.mem_cons_self
          · exact .bind (arguments_keeps n) fun _ ha => .offset_bind fun stop hs =>
              .pure ⟨⟨ha, hs start List.mem_cons_self, hn⟩, trivial⟩
        · exact .fail
      · exact .fail
termination_by structural n => n

theorem inheritedCall_keeps {marks : List Nat} : (n : Nat) → (start : Nat) → start ∈ marks →
    Keeps source marks (IsMapTarget source) (inheritedCall n start)
  | 0, _, _ => by rw [inheritedCall]; exact .fail
  | n + 1, start, hm => by
      rw [inheritedCall]
      exact .bind (name_keeps _) fun _ hn => .bind (arguments_keeps n) fun _ ha =>
          .offset_bind fun stop hs => .pure ⟨⟨ha, hs start hm, hn⟩, trivial⟩
termination_by structural n => n

theorem member_keeps {marks : List Nat} : (n : Nat) →
    Keeps source marks (Expr.Proper (Span.Within source)) (member n)
  | 0 => by rw [member]; exact .fail
  | n + 1 => by
      rw [member]
      exact .offset_bind fun _ _ => .bind (primary_keeps n) fun _ h =>
          properties_keeps n _ List.mem_cons_self _ h
termination_by structural n => n

theorem properties_keeps {marks : List Nat} : (n : Nat) → (start : Nat) → start ∈ marks →
    (target : Expr) → target.Proper (Span.Within source) →
    Keeps source marks (Expr.Proper (Span.Within source)) (properties n start target)
  | 0, _, _, _, _ => by rw [properties]; exact .fail
  | n + 1, start, hm, target, ht => by
      rw [properties]
      refine .bind (accept_keeps _) fun found _ => ?_
      split
      · refine .bind (startsWith_keeps _) fun opened _ => ?_
        split
        · exact .bind (parenthesized_keeps n) fun _ hk => .offset_bind fun stop hs =>
            properties_keeps n start (List.mem_cons_of_mem _ hm) _ ⟨ht, hk, hs start hm⟩
        · exact .bind propertyName_keeps fun _ _ => .offset_bind fun stop hs =>
            properties_keeps n start (List.mem_cons_of_mem _ hm) _ ⟨ht, hs start hm⟩
      · exact .pure ht
termination_by structural n => n

theorem primary_keeps {marks : List Nat} : (n : Nat) →
    Keeps source marks (Expr.Proper (Span.Within source)) (primary n)
  | 0 => by rw [primary]; exact .fail
  | n + 1 => by
      rw [primary]
      refine .offset_bind fun start _ => .bind peek?_keeps fun c _ => ?_
      split
      · exact .bind quoted_keeps fun _ _ => .offset_bind fun stop hs =>
          .pure (hs start List.mem_cons_self)
      · refine .bind (expect_keeps _) fun _ _ => .bind blanks_keeps fun _ _ =>
          .bind (P := Expr.ProperAll (Span.Within source))
            (.bind (accept_keeps _) fun found _ => ?_) fun _ hi => .offset_bind fun stop hs =>
            .pure ⟨hi, hs start List.mem_cons_self⟩
        split
        · exact .pure trivial
        · exact .bind (listItems_keeps n) fun _ hi => .bind blanks_keeps fun _ _ =>
            .bind (expect_keeps _) fun _ _ => .pure hi
      · exact .mono (anonymous_keeps n _ List.mem_cons_self) fun _ h => h.1
      · refine .bind (parenthesized_keeps n) fun _ hi => .bind (startsWith_keeps _) fun opened _ => ?_
        split
        · exact .bind (arguments_keeps n) fun _ ha => .offset_bind fun stop hs =>
            .pure ⟨hi, ha, hs start List.mem_cons_self⟩
        · exact .offset_bind fun stop hs => .pure ⟨hi, hs start List.mem_cons_self⟩
      · split
        · exact named_keeps n _ List.mem_cons_self
        · exact .fail
      · exact .fail
termination_by structural n => n

theorem named_keeps {marks : List Nat} : (n : Nat) → (start : Nat) → start ∈ marks →
    Keeps source marks (Expr.Proper (Span.Within source)) (named n start)
  | 0, _, _ => by rw [named]; exact .fail
  | n + 1, start, hm => by
      rw [named]
      refine .bind (name_keeps _) fun name hn => .bind (superDot_keeps _) fun inherited _ => ?_
      split
      · exact .mono (inheritedCall_keeps n start hm) fun _ h => h.1
      refine .bind (startsWith_keeps _) fun opened _ => ?_
      split
      · split
        · exact .bind (parenthesized_keeps n) fun _ ha => .offset_bind fun stop hs =>
            .pure ⟨ha, hs start hm⟩
        · exact .bind (arguments_keeps n) fun _ ha => .offset_bind fun stop hs =>
            .pure ⟨ha, hs start hm, hn⟩
      · refine .offset_bind fun stop hs => .pure ?_
        split
        · exact hs start hm
        · split
          · exact hs start hm
          · exact ⟨hs start hm, hn⟩
termination_by structural n => n

theorem parenthesized_keeps {marks : List Nat} : (n : Nat) →
    Keeps source marks (Expr.Proper (Span.Within source)) (parenthesized n)
  | 0 => by rw [parenthesized]; exact .fail
  | n + 1 => by
      rw [parenthesized]
      exact .bind (expect_keeps _) fun _ _ => .bind blanks_keeps fun _ _ =>
          .bind (expression_keeps n true) fun _ h => .bind blanks_keeps fun _ _ =>
            .bind (expect_keeps _) fun _ _ => .pure h
termination_by structural n => n

theorem arguments_keeps {marks : List Nat} : (n : Nat) →
    Keeps source marks (Arguments.Proper (Span.Within source)) (arguments n)
  | 0 => by rw [arguments]; exact .fail
  | n + 1 => by
      rw [arguments]
      refine .bind (expect_keeps _) fun _ _ => .bind blanks_keeps fun _ _ =>
        .bind (accept_keeps _) fun closed _ => ?_
      split
      · exact .pure trivial
      · refine .bind (P := Arguments.Proper (Span.Within source)) (.get_bind fun c => ?_)
          fun _ h => .bind blanks_keeps fun _ _ => .bind (expect_keeps _) fun _ _ => .pure h
        split
        · exact .bind (namedArguments_keeps n) fun _ h => .pure h
        · exact .bind (positionalArguments_keeps n) fun _ h => .pure h
termination_by structural n => n

theorem namedArguments_keeps {marks : List Nat} : (n : Nat) →
    Keeps source marks (NamedArgument.ProperAll (Span.Within source)) (namedArguments n)
  | 0 => by rw [namedArguments]; exact .fail
  | n + 1 => by
      rw [namedArguments]
      refine .get_bind fun c => ?_
      split
      · refine .offset_bind fun start _ => .bind (name_keeps _) fun _ hn => .offset_bind
          fun stop hs => .bind blanks_keeps fun _ _ => .bind (expect_keeps _) fun _ _ =>
          .bind blanks_keeps fun _ _ => .bind (expression_keeps n false) fun _ hv =>
          .bind (P := NamedArgument.ProperAll (Span.Within source))
            (.bind comma_keeps fun found _ => ?_) fun _ hm =>
            .pure ⟨hv, hs start List.mem_cons_self, hm, hn⟩
        split
        · exact namedArguments_keeps n
        · exact .pure trivial
      · exact .bind (P := fun _ => False) .fail nofun
termination_by structural n => n

theorem positionalArguments_keeps {marks : List Nat} : (n : Nat) →
    Keeps source marks (Expr.ProperAll (Span.Within source)) (positionalArguments n)
  | 0 => by rw [positionalArguments]; exact .fail
  | n + 1 => by
      rw [positionalArguments]
      refine .get_bind fun c => ?_
      split
      · exact .bind (P := fun _ => False) .fail nofun
      · refine .bind (expression_keeps n false) fun _ hv =>
          .bind (P := Expr.ProperAll (Span.Within source))
            (.bind comma_keeps fun found _ => ?_) fun _ hm => .pure ⟨hv, hm⟩
        split
        · exact positionalArguments_keeps n
        · exact .pure trivial
termination_by structural n => n

theorem listItems_keeps {marks : List Nat} : (n : Nat) →
    Keeps source marks (Expr.ProperAll (Span.Within source)) (listItems n)
  | 0 => by rw [listItems]; exact .fail
  | n + 1 => by
      rw [listItems]
      refine .bind (expression_keeps n false) fun _ hv =>
        .bind (P := Expr.ProperAll (Span.Within source))
          (.bind comma_keeps fun found _ => ?_) fun _ hm => .pure ⟨hv, hm⟩
      split
      · exact listItems_keeps n
      · exact .pure trivial
termination_by structural n => n

theorem anonymous_keeps {marks : List Nat} : (n : Nat) → (start : Nat) → start ∈ marks →
    Keeps source marks (IsMapTarget source) (anonymous n start)
  | 0, _, _ => by rw [anonymous]; exact .fail
  | n + 1, start, hm => by
      rw [anonymous]
      exact .bind (expect_keeps _) fun _ _ => .bind parameter_keeps fun _ _ =>
          .bind (body_keeps n true) fun _ hb => .bind (expect_keeps _) fun _ _ =>
            .offset_bind fun stop hs => .pure ⟨⟨hb, hs start hm⟩, trivial⟩
termination_by structural n => n

end

theorem template_keeps (n : Nat) :
    Keeps source marks (Element.ProperAll (Span.Within source)) (template n) := by
  refine .bind (body_keeps n false) fun body hb => .get_bind fun c => ?_
  split
  · exact .bind (P := fun _ => False) .fail nofun
  · exact .pure hb

theorem loneExpression_keeps (n : Nat) :
    Keeps source marks (Expr.Proper (Span.Within source)) (loneExpression n) :=
  .bind blanks_keeps fun _ _ => .bind (expression_keeps n true) fun _ he =>
    .bind blanks_keeps fun _ _ => .pure he

/-- What a reader gives for a whole source. -/
theorem run_keeps {reader : Nat → Reader α} (h : ∀ n, Keeps source [] P (reader n)) {a : α}
    (hr : run reader source = .ok a) : P a := by
  unfold run at hr
  have hc : (Cursor.mk source.toList 0).Placed source [] := ⟨⟨[], [], rfl, rfl, rfl⟩, nofun⟩
  dsimp only at hr
  split at hr
  · cases hr
  · rename_i b c hb
    split at hr
    · cases hr
      exact (h _ _ _ _ hc hb).2
    · cases hr

end Reader

/-- The elements that are read from a source are proper. -/
theorem Element.ProperAll.ofRead {source : String} {body : List Element}
    (h : Element.readAll source = .ok body) : Element.ProperAll (Span.Within source) body :=
  Reader.run_keeps Reader.template_keeps h

theorem Expr.Proper.ofRead {source : String} {e : Expr} (h : Expr.read source = .ok e) :
    e.Proper (Span.Within source) :=
  Reader.run_keeps Reader.loneExpression_keeps h

end Stencil
