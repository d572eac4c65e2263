import Stencil.Proofs.Taking
/-! Text is read as it is printed: quoted text, special characters, and literal text between tags. -/

namespace Stencil

namespace Element

/-- Elements with text in front, which joins a text that they start with. -/
def prepend (s : String) : List Element → List Element
  | .text t :: more => .text (s ++ t) :: more
  | more => if s.isEmpty then more else .text s :: more

theorem joinTexts_text (s : String) (es : List Element) :
    joinTexts (.text s :: es) = prepend s (joinTexts es) := by
  rw [joinTexts.eq_def]
  cases h : joinTexts es with
  | nil => simp [h, prepend]
  | cons e more => cases e <;> simp [h, prepend]

theorem prepend_empty (es : List Element) : prepend "" es = es := by
  unfold prepend
  split <;> simp

theorem prepend_prepend (s t : String) (es : List Element) :
    prepend s (prepend t es) = prepend (s ++ t) es := by
  cases es with
  | nil => by_cases ht : t = "" <;> simp [prepend, ht]
  | cons e more => cases e <;> by_cases ht : t = "" <;> simp [prepend, ht, String.append_assoc]

end Element

namespace Reader

variable {d : List Char}

/-! ## Quoted text -/

theorem quotedRest_plain {x : Char} (hq : x ≠ '"') (hb : x ≠ '\\') (cs : List Char) (offset : Nat) :
    quotedRest (x :: cs) offset = (do
      let (text, after) ← quotedRest cs (offset + x.utf8Size)
      return (x :: text, after)) := by
  rw [quotedRest.eq_def]
  split <;> simp_all

theorem quotedRest_takes (cs : List Char) (offset : Nat) :
    ∃ stop, quotedRest (cs.flatMap Print.quotedChar ++ '"' :: d) offset = .ok (cs, ⟨d, stop⟩) := by
  induction cs generalizing offset with
  | nil => exact ⟨_, by rw [List.flatMap_nil, List.nil_append, quotedRest]⟩
  | cons x cs ih =>
    rw [List.flatMap_cons, List.append_assoc, Print.quotedChar]
    split
    · rename_i h
      obtain ⟨stop, hr⟩ := ih (offset + 1 + x.utf8Size)
      refine ⟨stop, ?_⟩
      rw [List.cons_append, List.singleton_append, quotedRest, hr]
      rcases Bool.or_eq_true_iff.mp h with h | h
      · rw [of_decide_eq_true h]
        rfl
      · rw [of_decide_eq_true h]
        rfl
    · rename_i h
      obtain ⟨hq, hb⟩ := not_or.mp (by simpa using h)
      obtain ⟨stop, hr⟩ := ih (offset + x.utf8Size)
      refine ⟨stop, ?_⟩
      rw [List.singleton_append, quotedRest_plain hq hb, hr]
      rfl

theorem quoted_takes (s : String) : Takes quoted (Print.quoted s ++ d) d (· = s) := by
  rw [Print.quoted, List.cons_append, List.append_assoc, List.singleton_append]
  refine (expect_next rfl).bind fun _ _ => .map (P := (· = s.toList)) (fun offset => ?_)
    fun _ hs => ?_
  · obtain ⟨stop, hr⟩ := quotedRest_takes (d := d) s.toList offset
    exact ⟨_, stop, hr, rfl⟩
  · rw [hs, String.ofList_toList]

/-! ## Special characters -/

/-- The four digits of the characters that are printed as their numbers. -/
theorem unicodeEscape_takes {x : Char} {digits : List Char} (hl : digits.length = 4)
    (hd : digits.all isHexDigit = true)
    (hx : character? (digits.foldl (fun n d => 16 * n + hexDigit d) 0) = some x) :
    Takes unicodeEscape (digits ++ d) d (· = x) := by
  refine .bind (P := (· = some digits)) (d := d) (fun offset => ?_) fun o ho => ?_
  · refine ⟨some digits, offset + Text.byteLength digits, ?_, rfl⟩
    have ht : (digits ++ d).take 4 = digits := by rw [← hl, List.take_left]
    have hd' : (digits ++ d).drop 4 = d := by rw [← hl, List.drop_left]
    simp only [ht, hd', hl, hd]
    rfl
  · subst ho
    dsimp only
    rw [hx]
    exact .pure rfl

/-- The end of a special character. -/
theorem escapes_end (n : Nat) : Takes (escapes (n + 1)) ('>' :: d) ('>' :: d) (· = ([], false)) := by
  rw [escapes]
  exact .startsWith_bind (.pure rfl)

theorem special_takes {x : Char} (digits : List Char) (hl : digits.length = 4)
    (hd : digits.all isHexDigit = true)
    (hx : character? (digits.foldl (fun n d => 16 * n + hexDigit d) 0) = some x) :
    Takes special ('<' :: '\\' :: 'u' :: (digits ++ '>' :: d)) d (· = String.ofList [x]) := by
  refine (expect_next rfl).bind fun _ _ => .get_bind fun n => ?_
  have hescapes (m : Nat) : Takes (escapes (m + 2)) ('\\' :: 'u' :: (digits ++ '>' :: d)) ('>' :: d)
      (· = ([x], false)) := by
    rw [escapes]
    refine .startsWith_bind ((expect_next rfl).bind fun _ _ => ?_)
    refine .bind_eq (a := some 'u') (fun offset => ⟨_, _, rfl, rfl⟩) ?_
    refine .bind_eq (a := ([x], false)) (d := '>' :: d) ?_ ((escapes_end m).bind_eq (.pure rfl))
    exact (unicodeEscape_takes hl hd hx).bind_eq (.pure rfl)
  exact (hescapes _).bind_eq ((expect_next rfl).bind fun _ _ => .pure rfl)

/-! ## Literal text -/

/-- Characters that literal text holds as special characters. -/
def IsSpecial (x : Char) : Prop := x = '\\' ∨ x = '|'

/-- Places where literal text ends: a tag, the brace behind an anonymous template, the end. -/
def EndsText (nested : Bool) (c : List Char) : Prop :=
  ∀ x ∈ c.head?, x = '<' ∨ nested = true ∧ x = '\x7d'

theorem EndsText.nil (nested : Bool) : EndsText nested [] := fun x hx => by cases hx

theorem EndsText.tag {nested : Bool} (c : List Char) : EndsText nested ('<' :: c) :=
  fun _ hx => by cases hx; exact .inl rfl

theorem literalText_end {nested : Bool} {c : List Char} (h : EndsText nested c) (offset : Nat) :
    literalText nested c offset = ([], ⟨c, offset⟩) := by
  cases c with
  | nil => rfl
  | cons x c =>
    rw [literalText.eq_def]
    exact if_pos (by simpa using h x rfl)

theorem textChar_special {x : Char} (h : IsSpecial x) (nested : Bool) (c : List Char) :
    EndsText nested (Print.textChar x ++ c) := by
  rcases h with rfl | rfl
  · exact .tag _
  · exact .tag _

theorem textChar_length (x : Char) : 1 ≤ (Print.textChar x).length := by
  grind [Print.textChar]

/-- Where literal text starts that is no special character, no tag starts and no brace closes. -/
theorem textChar_head {x : Char} (h : ¬ IsSpecial x) :
    ∃ y cs, Print.textChar x = y :: cs ∧ y ≠ '<' ∧ y ≠ '\x7d' := by
  obtain ⟨hb, hbar⟩ := not_or.mp h
  unfold Print.textChar
  rw [if_neg hb, if_neg hbar]
  split
  · exact ⟨_, _, rfl, by decide, by decide⟩
  · rename_i hq
    simp only [Bool.or_eq_true, decide_eq_true_eq, not_or] at hq
    exact ⟨_, _, rfl, hq.1.1.1, hq.2⟩

/-- A character that is printed as itself or behind a backslash. -/
theorem literalText_char {x : Char} (h : ¬ IsSpecial x) (nested : Bool) (c : List Char) (offset : Nat) :
    ∃ stop, literalText nested (Print.textChar x ++ c) offset =
      (x :: (literalText nested c stop).1, (literalText nested c stop).2) := by
  obtain ⟨hb, hbar⟩ := not_or.mp h
  unfold Print.textChar
  rw [if_neg hb, if_neg hbar]
  split
  · rename_i hq
    refine ⟨offset + 2, ?_⟩
    rw [List.cons_append, List.singleton_append, literalText]
    rw [if_neg (by simp), if_pos rfl]
    dsimp only
    rw [if_pos hq]
  · rename_i hq
    simp only [Bool.or_eq_true, decide_eq_true_eq, not_or] at hq
    refine ⟨offset + x.utf8Size, ?_⟩
    rw [List.singleton_append, literalText.eq_def]
    dsimp only
    rw [if_neg (by simp [hq.1.1.1, hq.2]), if_neg hb]

/-- Literal text is read up to the next special character. -/
theorem literalText_takes (nested : Bool) (hd : EndsText nested d) (cs : List Char) :
    ∃ run more, cs = run ++ more ∧ (∀ x ∈ more.head?, IsSpecial x) ∧ ∀ offset, ∃ stop,
      literalText nested (cs.flatMap Print.textChar ++ d) offset =
        (run, ⟨more.flatMap Print.textChar ++ d, stop⟩) := by
  induction cs with
  | nil => exact ⟨[], [], rfl, nofun, fun offset => ⟨offset, literalText_end hd offset⟩⟩
  | cons x cs ih =>
    rw [List.flatMap_cons, List.append_assoc]
    by_cases hx : IsSpecial x
    · refine ⟨[], x :: cs, rfl, fun y hy => by cases hy; exact hx, fun offset => ⟨offset, ?_⟩⟩
      rw [literalText_end (textChar_special hx nested _), List.flatMap_cons, List.append_assoc]
    · obtain ⟨run, more, rfl, hm, hr⟩ := ih
      refine ⟨x :: run, more, rfl, hm, fun offset => ?_⟩
      obtain ⟨start, hc⟩ :=
        literalText_char hx nested ((run ++ more).flatMap Print.textChar ++ d) offset
      obtain ⟨stop, hr⟩ := hr start
      exact ⟨stop, by rw [hc, hr]⟩

/-! ## Bodies that start with text -/

theorem atBranchTag_head {c : List Char} (h : c.head? ≠ some '<') (offset : Nat) :
    atBranchTag ⟨c, offset⟩ = false := by
  simp only [atBranchTag, Cursor.startsWith, isPrefixOf_head (t := "<elseif(") rfl h,
    isPrefixOf_head (t := "<else>") rfl h, isPrefixOf_head (t := "<endif>") rfl h, Bool.or_self]

/-- Where a character of literal text is next, the text is an element. -/
theorem elements_text {nested : Bool} {x : Char} {c d e : List Char} {n : Nat} {P Q : List Element → Prop}
    {s : String} (hx : x ≠ '<') (hb : x ≠ '\x7d') (ht : Takes (text nested) (x :: c) d (· = s))
    (h : Takes (elements n nested) d e P) (hQ : ∀ es, P es → Q (.text s :: es)) :
    Takes (elements (n + 1) nested) (x :: c) e Q := by
  rw [elements]
  refine .get_bind fun offset => ?_
  have hx : (x :: c).head? ≠ some '<' := by simpa using hx
  have hb : (x :: c).head? ≠ some '\x7d' := by simpa using hb
  simp only [Cursor.startsWith, isPrefixOf_head (t := "\x7d") rfl hb, atBranchTag_head hx,
    isPrefixOf_head (t := "<!") rfl hx, isPrefixOf_head (t := "<\\") rfl hx,
    isPrefixOf_head (t := "<if(") rfl hx, isPrefixOf_head (t := "<") rfl hx, List.isEmpty_cons,
    Bool.and_false, Bool.or_self, if_false, Bool.false_eq_true]
  exact ht.bind fun _ hs => h.map fun es hes => hs ▸ hQ es hes

/-- A special character is an element. -/
theorem elements_special {nested : Bool} {x : Char} {c e : List Char} {n : Nat} {P Q : List Element → Prop}
    (hx : IsSpecial x) (h : Takes (elements n nested) c e P)
    (hQ : ∀ es, P es → Q (.text (String.ofList [x]) :: es)) :
    Takes (elements (n + 1) nested) (Print.textChar x ++ c) e Q := by
  have hs : Takes special (Print.textChar x ++ c) c (· = String.ofList [x]) := by
    rcases hx with rfl | rfl
    · exact special_takes ['0', '0', '5', 'c'] rfl rfl (by decide)
    · exact special_takes ['0', '0', '7', 'c'] rfl rfl (by decide)
  rw [elements]
  refine .get_bind fun offset => ?_
  have hc : ∃ more, Print.textChar x ++ c = '<' :: '\\' :: 'u' :: more := by
    rcases hx with rfl | rfl
    · exact ⟨_, rfl⟩
    · exact ⟨_, rfl⟩
  obtain ⟨more, hc⟩ := hc
  rw [hc] at hs ⊢
  rw [if_neg (by cases nested <;> simp [Cursor.startsWith, atBranchTag, List.isPrefixOf]),
    if_neg (by simp [Cursor.startsWith, List.isPrefixOf]),
    if_pos (by simp [Cursor.startsWith, List.isPrefixOf])]
  exact hs.bind fun _ ha => h.map fun es hes => ha ▸ hQ es hes

/-- Literal text is joined to one element, in front of what is read behind it. -/
theorem elements_prepend {nested : Bool} {c d : List Char} {P : List Element → Prop} (hc : EndsText nested c)
    (cs : List Char) {n : Nat} (hn : (cs.flatMap Print.textChar).length ≤ n)
    (h : ∀ m, n ≤ m + (cs.flatMap Print.textChar).length → Takes (elements m nested) c d P) :
    Takes (elements n nested) (cs.flatMap Print.textChar ++ c) d fun es =>
      ∃ more, P more ∧ Element.joinTexts es = Element.prepend (String.ofList cs) (Element.joinTexts more) := by
  induction hk : cs.length using Nat.strongRecOn generalizing cs n with
  | ind k ih =>
  subst hk
  cases cs with
  | nil =>
    refine (h n (Nat.le_add_right _ _)).mono fun es hes => ⟨es, hes, ?_⟩
    rw [String.ofList_nil, Element.prepend_empty]
  | cons x cs =>
    rw [List.flatMap_cons, List.length_append] at hn h
    have hx := textChar_length x
    obtain ⟨n, rfl⟩ : ∃ k, n = k + 1 := ⟨n - 1, by omega⟩
    by_cases hs : IsSpecial x
    · rw [List.flatMap_cons, List.append_assoc]
      refine elements_special hs
        (ih cs.length (Nat.lt_succ_self _) cs (by omega) (fun m hm => h m (by omega)) rfl) ?_
      rintro es ⟨more, hm, he⟩
      refine ⟨more, hm, ?_⟩
      rw [Element.joinTexts_text, he, Element.prepend_prepend, ← String.ofList_append, List.singleton_append]
    · obtain ⟨y, first, hy, ht, hb⟩ := textChar_head hs
      obtain ⟨run, more, hcs, hm, hread⟩ := literalText_takes nested hc (x :: cs)
      obtain ⟨run, rfl, rfl⟩ : ∃ r, run = x :: r ∧ cs = r ++ more := by
        cases run with
        | nil => exact absurd (hm x (by rw [← List.nil_append more, ← hcs]; rfl)) hs
        | cons z run =>
          obtain ⟨rfl, rfl⟩ := List.cons_eq_cons.mp hcs
          exact ⟨run, rfl, rfl⟩
      have htext : Takes (text nested) ((x :: (run ++ more)).flatMap Print.textChar ++ c)
          (more.flatMap Print.textChar ++ c) (· = String.ofList (x :: run)) := fun offset => by
        obtain ⟨stop, hr⟩ := hread offset
        exact ⟨_, stop, by rw [text, hr], rfl⟩
      rw [List.flatMap_append, List.length_append] at hn h
      rw [List.flatMap_cons, hy, List.append_assoc, List.cons_append] at htext ⊢
      refine elements_text ht hb htext
        (ih more.length (by simp only [List.length_cons, List.length_append]; omega) more (by omega)
          (fun m hm => h m (by omega)) rfl) ?_
      rintro es ⟨rest, hrest, he⟩
      refine ⟨rest, hrest, ?_⟩
      rw [Element.joinTexts_text, he, Element.prepend_prepend, ← String.ofList_append, List.cons_append]

end Reader

end Stencil
