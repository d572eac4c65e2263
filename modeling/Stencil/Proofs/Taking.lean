import Stencil.Template.Printing
import Stencil.Template.Reader
/-! Readers on known text: what they take off its front, and where they fail. -/

namespace Stencil.Reader

variable {α β : Type} {c d e : List Char} {P : α → Prop} {Q : β → Prop}

/-- On the text `c`, a reader takes what stands in front of `d` and gives what `P` admits. -/
def Takes (r : Reader α) (c d : List Char) (P : α → Prop) : Prop :=
  ∀ offset, ∃ a stop, r ⟨c, offset⟩ = .ok (a, ⟨d, stop⟩) ∧ P a

def Fails (r : Reader α) (c : List Char) : Prop := ∀ offset, ∃ f, r ⟨c, offset⟩ = .error f

theorem bind_apply (r : Reader α) (f : α → Reader β) (s : Cursor) :
    (r >>= f) s = r s >>= fun p => f p.1 p.2 := rfl

/-- A token is not next where another character is. -/
theorem isPrefixOf_head {t : String} {x : Char} {cs : List Char} (h : t.toList = x :: cs)
    (hc : c.head? ≠ some x) : t.toList.isPrefixOf c = false := by
  rw [h]
  cases c with
  | nil => rfl
  | cons y c =>
    rw [List.isPrefixOf, Bool.and_eq_false_iff]
    exact .inl (by simpa using fun h => hc (congrArg some h.symm))

namespace Takes

theorem pure {a : α} (h : P a) : Takes (pure a) c c P := fun offset => ⟨a, offset, rfl, h⟩

theorem bind {r : Reader α} {f : α → Reader β} (h : Takes r c d P)
    (hf : ∀ a, P a → Takes (f a) d e Q) : Takes (r >>= f) c e Q := by
  intro offset
  obtain ⟨a, stop, hr, ha⟩ := h offset
  rw [bind_apply, hr]
  exact hf a ha stop

/-- Reading goes on with the one value that there can be. -/
theorem bind_eq {r : Reader α} {f : α → Reader β} {a : α} (h : Takes r c d (· = a))
    (hf : Takes (f a) d e Q) : Takes (r >>= f) c e Q := h.bind fun _ ha => ha ▸ hf

theorem mono {P' : α → Prop} {r : Reader α} (h : Takes r c d P) (hP : ∀ a, P a → P' a) :
    Takes r c d P' := fun offset =>
  let ⟨a, stop, hr, ha⟩ := h offset
  ⟨a, stop, hr, hP a ha⟩

theorem map {r : Reader α} {f : α → β} (h : Takes r c d P) (hf : ∀ a, P a → Q (f a)) :
    Takes (f <$> r) c d Q := by
  intro offset
  obtain ⟨a, stop, hr, ha⟩ := h offset
  refine ⟨f a, stop, ?_, hf a ha⟩
  change (r ⟨c, offset⟩ >>= fun p => Except.ok (f p.1, p.2)) = _
  rw [hr]
  rfl

/-- Reading goes on with the offset, whatever it is. -/
theorem offset_bind {f : Nat → Reader β} (h : ∀ n, Takes (f n) c d Q) :
    Takes (Reader.offset >>= f) c d Q := fun offset => h offset offset

theorem get_bind {f : Cursor → Reader β} (h : ∀ n, Takes (f ⟨c, n⟩) c d Q) :
    Takes ((get : Reader Cursor) >>= f) c d Q := fun offset => h offset offset

theorem peek_bind {f : Option Char → Reader β} (h : Takes (f c.head?) c d Q) :
    Takes (peek? >>= f) c d Q := h

theorem startsWith_bind {token : String} {f : Bool → Reader β}
    (h : Takes (f (token.toList.isPrefixOf c)) c d Q) : Takes (startsWith token >>= f) c d Q := h

theorem startsWith_next {token : String} {x : Char} {f : Bool → Reader β} (hx : token.toList = [x])
    (h : Takes (f true) (x :: c) d Q) : Takes (startsWith token >>= f) (x :: c) d Q := by
  have ht : token.toList.isPrefixOf (x :: c) = true := by rw [hx]; simp [List.isPrefixOf]
  exact startsWith_bind (ht ▸ h)

theorem startsWith_other {token : String} {x : Char} {cs : List Char} {f : Bool → Reader β}
    (hx : token.toList = x :: cs) (hc : c.head? ≠ some x) (h : Takes (f false) c d Q) :
    Takes (startsWith token >>= f) c d Q :=
  startsWith_bind ((isPrefixOf_head hx hc).symm ▸ h)

end Takes

namespace Fails

theorem bind {r : Reader α} {f : α → Reader β} (h : Takes r c d P) (hf : ∀ a, P a → Fails (f a) d) :
    Fails (r >>= f) c := by
  intro offset
  obtain ⟨a, stop, hr, ha⟩ := h offset
  rw [bind_apply, hr]
  exact hf a ha stop

theorem first {r : Reader α} {f : α → Reader β} (h : Fails r c) : Fails (r >>= f) c := by
  intro offset
  obtain ⟨fault, hr⟩ := h offset
  rw [bind_apply, hr]
  exact ⟨fault, rfl⟩

theorem fail (fault : Fault) : Fails (fail fault : Reader α) c := fun offset => ⟨⟨fault, offset⟩, rfl⟩

end Fails

/-! ## Tokens and blanks -/

theorem past?_append (cs : List Char) (offset : Nat) :
    (Cursor.mk (cs ++ d) offset).past? cs = some ⟨d, offset + Text.byteLength cs⟩ := by
  rw [Cursor.past?, if_pos (List.isPrefixOf_iff_prefix.mpr (List.prefix_append cs d)), List.drop_left]
  rfl

theorem accept_takes {token : String} {s : List Char} (h : token.toList = s) :
    Takes (accept token) (s ++ d) d (· = true) := by
  intro offset
  refine ⟨true, offset + Text.byteLength s, ?_, rfl⟩
  rw [accept, h, past?_append]

theorem accept_next {token : String} {x : Char} (h : token.toList = [x]) :
    Takes (accept token) (x :: d) d (· = true) := accept_takes (s := [x]) h

theorem accept_refuses {token : String} (h : token.toList.isPrefixOf c = false) :
    Takes (accept token) c c (· = false) := by
  intro offset
  refine ⟨false, offset, ?_, rfl⟩
  rw [accept, Cursor.past?, if_neg (by simp [h])]

theorem expect_takes {token : String} {s : List Char} (h : token.toList = s) :
    Takes (expect token) (s ++ d) d (fun _ => True) :=
  (accept_takes h).bind_eq (.pure trivial)

theorem expect_next {token : String} {x : Char} (h : token.toList = [x]) :
    Takes (expect token) (x :: d) d (fun _ => True) := expect_takes (s := [x]) h

theorem expect_fails {token : String} (h : token.toList.isPrefixOf c = false) :
    Fails (expect token) c :=
  .bind (accept_refuses h) fun _ ha => by
    subst ha
    exact .fail _

theorem takeWhile_takes (p : Char → Bool) : Takes (takeWhile p) c (c.dropWhile p) (· = c.takeWhile p) :=
  fun _ => ⟨_, _, rfl, rfl⟩

theorem blanks_takes : Takes blanks c (c.dropWhile Text.isBlank) (fun _ => True) :=
  (takeWhile_takes _).bind fun _ _ => .pure trivial

theorem dropWhile_isBlank (h : ∀ x ∈ c.head?, Text.isBlank x = false) : c.dropWhile Text.isBlank = c := by
  cases c with
  | nil => rfl
  | cons x c => rw [List.dropWhile_cons_of_neg (by simp [h x rfl])]

/-- Where no blank is, none is taken. -/
theorem blanks_none (h : ∀ x ∈ c.head?, Text.isBlank x = false) : Takes blanks c c (fun _ => True) := by
  have ht := blanks_takes (c := c)
  rwa [dropWhile_isBlank h] at ht

theorem optional_takes {r : Reader α} (h : Takes r c d P) :
    Takes (Reader.optional r) c d fun o => ∃ a, o = some a ∧ P a := by
  intro offset
  obtain ⟨a, stop, hr, ha⟩ := h offset
  exact ⟨some a, stop, by rw [Reader.optional, hr], a, rfl, ha⟩

theorem optional_none {r : Reader α} (h : Fails r c) : Takes (Reader.optional r) c c (· = none) := by
  intro offset
  obtain ⟨fault, hr⟩ := h offset
  exact ⟨none, offset, by rw [Reader.optional, hr], rfl⟩

theorem operator_takes {token : String} {s : List Char} (ht : token.toList = s)
    (hc : c.dropWhile Text.isBlank = s ++ d) :
    Takes (operator token) c (d.dropWhile Text.isBlank) (· = true) := by
  have hr : Takes (do blanks; expect token; blanks) c (d.dropWhile Text.isBlank) fun _ => True :=
    blanks_takes.bind fun _ _ => by
      rw [hc]
      exact (expect_takes ht).bind fun _ _ => blanks_takes
  exact (optional_takes hr).bind fun o ⟨_, ho, _⟩ => by
    subst ho
    exact .pure rfl

theorem operator_next {token : String} {x : Char} (ht : token.toList = [x]) (hx : Text.isBlank x = false)
    (hc : ∀ y ∈ c.head?, Text.isBlank y = false) : Takes (operator token) (x :: c) c (· = true) := by
  have h := operator_takes (c := x :: c) (s := [x]) (d := c) ht
    (dropWhile_isBlank fun y hy => by cases hy; exact hx)
  rwa [dropWhile_isBlank hc] at h

/-- An operator that is not next leaves the blanks in front of where it could be. -/
theorem operator_refuses {token : String}
    (h : token.toList.isPrefixOf (c.dropWhile Text.isBlank) = false) :
    Takes (operator token) c c (· = false) := by
  have hr : Fails (do blanks; expect token; blanks) c :=
    .bind blanks_takes fun _ _ => (expect_fails h).first
  exact (optional_none hr).bind_eq (.pure rfl)

theorem comma_takes : Takes comma (',' :: c) (c.dropWhile Text.isBlank) (· = true) :=
  (blanks_none fun x hx => by cases hx; rfl).bind fun _ _ =>
    (accept_takes (s := [',']) rfl).bind fun _ ha => by
      subst ha
      exact blanks_takes.bind fun _ _ => .pure rfl

/-- Where neither a blank nor a comma is, nothing is taken. -/
theorem comma_refuses (hb : ∀ x ∈ c.head?, Text.isBlank x = false) (hc : c.head? ≠ some ',') :
    Takes comma c c (· = false) :=
  (blanks_none hb).bind fun _ _ => (accept_refuses (isPrefixOf_head rfl hc)).bind_eq (.pure rfl)

/-! ## Names -/

/-- The codes of capital letters, of small ones and of the underscore. -/
theorem code_of_startsName {x : Char} (h : startsName x = true) :
    65 ≤ x.toNat ∧ x.toNat ≤ 90 ∨ 97 ≤ x.toNat ∧ x.toNat ≤ 122 ∨ x.toNat = 95 := by
  rcases Bool.or_eq_true_iff.mp h with h | h
  · rcases Bool.or_eq_true_iff.mp h with h | h
    · obtain ⟨hA, hZ⟩ : 'A'.val ≤ x.val ∧ x.val ≤ 'Z'.val := of_decide_eq_true h
      exact .inl ⟨UInt32.le_iff_toNat_le.mp hA, UInt32.le_iff_toNat_le.mp hZ⟩
    · obtain ⟨ha, hz⟩ := Bool.and_eq_true_iff.mp h
      exact .inr (.inl ⟨UInt32.le_iff_toNat_le.mp (of_decide_eq_true ha),
        UInt32.le_iff_toNat_le.mp (of_decide_eq_true hz)⟩)
  · exact .inr (.inr (congrArg Char.toNat (beq_iff_eq.mp h)))

/-- No name starts with a digit. -/
theorem isDigit_of_startsName {x : Char} (h : startsName x = true) : x.isDigit = false := by
  have hx := code_of_startsName h
  have h9 : '9'.val.toNat = 57 := rfl
  rw [Char.toNat] at hx
  simp only [Char.isDigit, Bool.and_eq_false_iff, decide_eq_false_iff_not, UInt32.le_iff_toNat_le,
    ge_iff_le]
  omega

theorem takeWhile_append {p : Char → Bool} {cs : List Char} (hcs : cs.all p = true)
    (hd : ∀ x ∈ d.head?, p x = false) : (cs ++ d).takeWhile p = cs ∧ (cs ++ d).dropWhile p = d := by
  have hall : ∀ x ∈ cs, p x = true := List.all_eq_true.mp hcs
  rw [List.takeWhile_append_of_pos hall, List.dropWhile_append_of_pos hall]
  cases d with
  | nil => simp
  | cons x d =>
    have hx : ¬ p x = true := by simp [hd x rfl]
    rw [List.takeWhile_cons_of_neg hx, List.dropWhile_cons_of_neg hx, List.append_nil]
    exact ⟨rfl, rfl⟩

/-- The characters of a name: one that starts it, and others that continue it. -/
theorem isName_iff {s : String} : isName s = true ↔
    ∃ x cs, s.toList = x :: cs ∧ startsName x = true ∧ (x :: cs).all continuesName = true := by
  unfold isName
  constructor
  · intro h
    split at h
    · cases h
    · rename_i x cs hs
      obtain ⟨hx, hcs⟩ := Bool.and_eq_true_iff.mp h
      refine ⟨x, cs, hs, hx, ?_⟩
      rw [List.all_cons, continuesName_of_startsName hx, hcs]
      rfl
  · rintro ⟨x, cs, hs, hx, hcs⟩
    rw [hs]
    rw [List.all_cons] at hcs
    simp [hx, (Bool.and_eq_true_iff.mp hcs).2]

theorem name_takes {s : String} (hs : isName s = true) (fault : Fault)
    (hd : ∀ x ∈ d.head?, continuesName x = false) : Takes (name fault) (s.toList ++ d) d (· = s) := by
  obtain ⟨x, cs, hl, hx, hcs⟩ := isName_iff.mp hs
  obtain ⟨ht, hw⟩ := takeWhile_append hcs hd
  have hread := takeWhile_takes (c := s.toList ++ d) continuesName
  rw [hl] at hread ⊢
  rw [ht, hw] at hread
  refine .peek_bind ?_
  simp only [List.cons_append, List.head?_cons, hx, if_true]
  refine hread.map fun _ ha => ?_
  rw [ha, ← hl, String.ofList_toList]

/-- Where a name starts, the longest one is read. -/
theorem name_takes_longest {fault : Fault} {x : Char} (hx : c.head? = some x) (hs : startsName x = true) :
    Takes (name fault) c (c.dropWhile continuesName) fun _ => True := by
  refine .peek_bind ?_
  rw [hx]
  simp only [hs, if_true]
  exact (takeWhile_takes _).map fun _ _ => trivial

/-- Where no name starts, none is read. -/
theorem name_fails {fault : Fault} (h : ∀ x ∈ c.head?, startsName x = false) : Fails (name fault) c := by
  refine .bind (P := (· = c.head?)) (fun offset => ⟨_, offset, rfl, rfl⟩) fun o ho => ?_
  subst ho
  cases c with
  | nil => exact .fail _
  | cons x c =>
    simp only [List.head?_cons, h x rfl]
    exact .fail _

theorem propertyName_takes {s : String} (hs : isPropertyName s = true)
    (hd : ∀ x ∈ d.head?, continuesName x = false) : Takes propertyName (s.toList ++ d) d (· = s) := by
  refine .peek_bind ?_
  rcases Bool.or_eq_true_iff.mp hs with hn | hdigits
  · obtain ⟨x, cs, hl, hx, -⟩ := isName_iff.mp hn
    have hread := name_takes hn .expectedPropertyName hd
    rw [hl] at hread ⊢
    simp only [List.cons_append, List.head?_cons, isDigit_of_startsName hx]
    exact hread
  · have hd' : ∀ x ∈ d.head?, x.isDigit = false := fun x hx => by
      have h := hd x hx
      simp only [continuesName, Char.isAlphanum, Bool.or_eq_false_iff] at h
      exact h.1.1.2
    split at hdigits
    · cases hdigits
    · rename_i x cs hl
      obtain ⟨ht, hw⟩ := takeWhile_append hdigits hd'
      have hread := takeWhile_takes (c := x :: cs ++ d) Char.isDigit
      rw [ht, hw] at hread
      rw [List.all_cons] at hdigits
      rw [hl]
      simp only [List.cons_append, List.head?_cons, (Bool.and_eq_true_iff.mp hdigits).1, if_true]
      refine hread.map fun _ ha => ?_
      rw [ha, ← hl, String.ofList_toList]

end Stencil.Reader
