import Mathlib.Data.List.Induction
import Stencil.Program.Compile
import Stencil.Proofs.Ahead
/-! Positions in source. A syntax error is reported at a place between two characters, by the lines in front of it
and the characters in front of it on its line, and no two places have the same position. -/

namespace Stencil

/-! ## Places between characters -/

namespace Text

/-- Text can be cut between characters. -/
theorem splitAt?_append (before after : List Char) :
    splitAt? (byteLength before) (before ++ after) = some (before, after) := by
  induction before with
  | nil => rw [byteLength, List.nil_append, splitAt?]
  | cons c before ih =>
    have hc : 0 < c.utf8Size := c.utf8Size_pos
    obtain ⟨n, hn⟩ := Nat.exists_eq_add_one_of_ne_zero (n := byteLength (c :: before)) (by rw [byteLength]; omega)
    have hsub : n + 1 - c.utf8Size = byteLength before := by rw [byteLength] at hn; omega
    rw [hn, List.cons_append, splitAt?, if_pos (by rw [byteLength] at hn; omega), hsub, ih]
    rfl

end Text

namespace Location

/-- A place of a source, between two characters or at an end, and what is in front of it. -/
def IsPlace (source : String) (offset : Nat) (before : List Char) : Prop :=
  ∃ after, source.toList = before ++ after ∧ offset = Text.byteLength before

variable {source : String} {offset offset' : Nat} {before before' : List Char}

theorem IsPlace.le (h : IsPlace source offset before) : offset ≤ source.utf8ByteSize := by
  obtain ⟨after, hs, rfl⟩ := h
  rw [Text.utf8ByteSize_eq, hs, Text.byteLength_append]
  omega

/-- At a place, nothing is cut off or taken for the end. -/
theorem IsPlace.inSource_eq (h : IsPlace source offset before) (length : Nat) :
    inSource source offset length = ⟨(lineAndColumn before).1, (lineAndColumn before).2, offset, length⟩ := by
  have hle := h.le
  obtain ⟨after, hs, rfl⟩ := h
  simp only [inSource, Nat.min_eq_left hle, hs, Text.splitAt?_append, Option.map_some, Option.getD_some]

/-- What is in front of the later of two places goes on behind what is in front of the other. -/
theorem IsPlace.append_of_lt (h : IsPlace source offset before) (h' : IsPlace source offset' before')
    (hlt : offset < offset') : ∃ between, between ≠ [] ∧ before' = before ++ between := by
  obtain ⟨after, hs, rfl⟩ := h
  obtain ⟨after', hs', rfl⟩ := h'
  obtain ⟨between, hb, -⟩ | ⟨between, hb, -⟩ := List.append_eq_append_iff.mp (hs.symm.trans hs')
  · refine ⟨between, ?_, hb⟩
    rintro rfl
    rw [hb, List.append_nil] at hlt
    exact Nat.lt_irrefl _ hlt
  · rw [hb, Text.byteLength_append] at hlt
    omega

/-! ## Lines and columns -/

theorem lineAndColumn_concat (cs : List Char) (c : Char) : lineAndColumn (cs ++ [c]) =
    if c = '\n' then ((lineAndColumn cs).1 + 1, 1) else ((lineAndColumn cs).1, (lineAndColumn cs).2 + 1) := by
  rw [lineAndColumn, lineAndColumn, List.foldl_append]
  rfl

/-- Lines are counted by their ends, and columns from the last of them. -/
theorem lineAndColumn_eq (cs : List Char) :
    lineAndColumn cs = (cs.count '\n' + 1, (cs.reverse.takeWhile (· ≠ '\n')).length + 1) := by
  induction cs using List.reverseRecOn with
  | nil => rfl
  | append_singleton cs c ih =>
    rw [lineAndColumn_concat, ih]
    by_cases hc : c = '\n'
    · subst hc
      simp
    · simp [hc, List.count_append]

/-- The place that reading got to is located as any other place is. -/
theorem IsPlace.reached_eq (h : IsPlace source offset before) : reached source offset = inSource source offset 1 := by
  rw [h.inSource_eq, lineAndColumn_eq]
  obtain ⟨after, hs, rfl⟩ := h
  simp only [reached, hs, Text.splitAt?_append, Option.map_some, Option.getD_some]

/-- A position comes before another one, in an earlier line or further left in its line. -/
def Before (l l' : Location) : Prop := l.line < l'.line ∨ l.line = l'.line ∧ l.column < l'.column

/-- Going forward by some characters leads to a later position. -/
theorem lineAndColumn_append (cs : List Char) {between : List Char} (h : between ≠ []) :
    (lineAndColumn cs).1 < (lineAndColumn (cs ++ between)).1 ∨
      (lineAndColumn cs).1 = (lineAndColumn (cs ++ between)).1 ∧
        (lineAndColumn cs).2 < (lineAndColumn (cs ++ between)).2 := by
  induction between using List.reverseRecOn with
  | nil => exact absurd rfl h
  | append_singleton between c ih =>
    have hstep : (lineAndColumn (cs ++ between)).1 < (lineAndColumn (cs ++ between ++ [c])).1 ∨
        (lineAndColumn (cs ++ between)).1 = (lineAndColumn (cs ++ between ++ [c])).1 ∧
          (lineAndColumn (cs ++ between)).2 < (lineAndColumn (cs ++ between ++ [c])).2 := by
      rw [lineAndColumn_concat]
      split
      · exact .inl (Nat.lt_succ_self _)
      · exact .inr ⟨rfl, Nat.lt_succ_self _⟩
    rw [← List.append_assoc]
    by_cases hb : between = []
    · rwa [hb, List.append_nil] at hstep ⊢
    · have hfirst := ih hb
      omega

theorem IsPlace.before_of_lt (h : IsPlace source offset before) (h' : IsPlace source offset' before')
    (hlt : offset < offset') (length length' : Nat) :
    (inSource source offset length).Before (inSource source offset' length') := by
  obtain ⟨between, hne, rfl⟩ := h.append_of_lt h' hlt
  rw [h.inSource_eq, h'.inSource_eq]
  exact lineAndColumn_append before hne

end Location

/-! ## Syntax errors -/

/-- A syntax error is reported at a place of the source. -/
theorem Reader.run_failure {α : Type} {reader : Nat → Reader α} (h : ∀ n, (reader n).Ahead) {source : String}
    {e : SyntaxError} (hr : Reader.run reader source = .error e) :
    ∃ before, Location.IsPlace source e.location.offset before ∧
      e.location = .inSource source e.location.offset 1 := by
  have hplace {d : Cursor} (hd : (Cursor.mk source.toList 0).Forward d) (fault : Fault)
      (he : SyntaxError.mk fault (.reached source d.offset) = e) :
      ∃ before, Location.IsPlace source e.location.offset before ∧
        e.location = .inSource source e.location.offset 1 := by
    obtain ⟨taken, hs, ho⟩ := hd
    have hd : Location.IsPlace source d.offset taken := ⟨d.rest, hs, ho.trans (Nat.zero_add _)⟩
    subst he
    exact ⟨taken, hd, hd.reached_eq⟩
  unfold Reader.run at hr
  dsimp only at hr
  split at hr
  · next f hf =>
    obtain ⟨d, hd, ho⟩ := (h _).failure hf
    exact hplace hd f.fault (ho ▸ Except.error.inj hr)
  · next a c hc =>
    split at hr
    · cases hr
    · exact hplace ((h _).forward hc) _ (Except.error.inj hr)

/-- What is wrong with a source is reported at a place in it, or at its end, as people count lines and columns.
The position is that of the diagnostic as well, and different places have different positions, the earlier place
the earlier one. -/
theorem syntax_errors_placed (source : String) :
    (∀ e, Element.readAll source = .error e ∨ Expr.read source = .error e →
      e.location.offset ≤ source.utf8ByteSize ∧
      (∃ before after, source.toList = before ++ after ∧ e.location.offset = Text.byteLength before ∧
        e.location.line = before.count '\n' + 1 ∧
        e.location.column = (before.reverse.takeWhile (· ≠ '\n')).length + 1) ∧
      Location.inSource source e.location.offset 1 = e.location ∧
      (Element.readAll source = .error e → ∀ name formals, ∃ d, Template.read name formals source = .error ⟨name, [d]⟩ ∧
        d.location = some (.inSource source e.location.offset 1))) ∧
    ∀ offset offset' before before', Location.IsPlace source offset before → Location.IsPlace source offset' before' →
      offset < offset' → ∀ length length',
      (Location.inSource source offset length).Before (.inSource source offset' length') := by
  refine ⟨fun e he => ?_, fun _ _ _ _ h h' hlt => h.before_of_lt h' hlt⟩
  obtain ⟨before, hp, hl⟩ : ∃ before, Location.IsPlace source e.location.offset before ∧
      e.location = .inSource source e.location.offset 1 := by
    obtain he | he := he
    · exact Reader.run_failure Reader.template_ahead he
    · exact Reader.run_failure Reader.loneExpression_ahead he
  refine ⟨hp.le, ?_, hl.symm, fun hr name formals => ⟨_, by rw [Template.read, hr], rfl⟩⟩
  have heq := hl.trans (hp.inSource_eq 1)
  rw [Location.lineAndColumn_eq] at heq
  obtain ⟨after, hs, ho⟩ := hp
  exact ⟨before, after, hs, ho, congrArg Location.line heq, congrArg Location.column heq⟩

theorem syntax_errors_placed_draft : ∃ e, Element.readAll "a\n<é" = .error e ∧
    (e.location.offset ≤ "a\n<é".utf8ByteSize ∧
      (∃ before after, "a\n<é".toList = before ++ after ∧ e.location.offset = Text.byteLength before ∧
        e.location.line = before.count '\n' + 1 ∧
        e.location.column = (before.reverse.takeWhile (· ≠ '\n')).length + 1) ∧
      Location.inSource "a\n<é" e.location.offset 1 = e.location ∧
      ∃ d, Template.read "draft" .any "a\n<é" = .error ⟨"draft", [d]⟩ ∧
        d.location = some (.inSource "a\n<é" e.location.offset 1)) ∧
    (Location.inSource "a\n<é" 1 0).Before (.inSource "a\n<é" 2 0) := by
  have hok : (Element.readAll "a\n<é").isOk = false := by decide +kernel
  obtain ⟨h, hpositions⟩ := syntax_errors_placed "a\n<é"
  cases he : Element.readAll "a\n<é" with
  | ok body =>
    rw [he] at hok
    cases hok
  | error e =>
    obtain ⟨hle, hplace, hl, hd⟩ := h e (.inl he)
    exact ⟨e, rfl, ⟨hle, hplace, hl, hd he "draft" .any⟩, hpositions 1 2 ['a'] ['a', '\n'] ⟨"\n<é".toList, rfl, rfl⟩
      ⟨"<é".toList, rfl, rfl⟩ (by decide) 0 0⟩

end Stencil
