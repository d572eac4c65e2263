import Stencil.Proofs.Conditions
/-! Bodies, their tags and conditionals, and anonymous templates are read as they are printed. -/

namespace Stencil

namespace Reader

variable {c d : List Char}

/-! ## Parameters of anonymous templates -/

/-- Text without a bar up to a tag or a closing brace. -/
inductive Unbarred : List Char → Prop where
  | stop {x : Char} (hx : x = '<' ∨ x = '\x7d') (c : List Char) : Unbarred (x :: c)
  | cons {x : Char} (hx : x ≠ '|') {c : List Char} (h : Unbarred c) : Unbarred (x :: c)

theorem Unbarred.text (h : Unbarred c) (cs : List Char) : Unbarred (cs.flatMap Print.textChar ++ c) := by
  induction cs with
  | nil => exact h
  | cons x cs ih =>
    rw [List.flatMap_cons, List.append_assoc]
    unfold Print.textChar
    split
    · exact .stop (.inl rfl) _
    · split
      · exact .stop (.inl rfl) _
      · rename_i hx
        split
        · exact .cons (by decide) (.cons hx ih)
        · exact .cons hx ih

theorem Unbarred.dropWhile {p : Char → Bool} (h : Unbarred c) (ht : p '<' = false) (hb : p '\x7d' = false) :
    Unbarred (c.dropWhile p) := by
  induction h with
  | @stop x hx c =>
    have hp : p x = false := by rcases hx with rfl | rfl <;> assumption
    rw [List.dropWhile_cons_of_neg (by simp [hp])]
    exact .stop hx c
  | @cons x hx c h ih =>
    by_cases hp : p x = true
    · rw [List.dropWhile_cons_of_pos hp]
      exact ih
    · rw [List.dropWhile_cons_of_neg hp]
      exact .cons hx h

theorem Unbarred.head_ne (h : Unbarred c) : c.head? ≠ some '|' := by
  cases h with
  | stop hx c => rcases hx with rfl | rfl <;> simp
  | cons hx h => simpa using hx

end Reader

open Reader

namespace TagOption

def print (o : TagOption) : List Char := o.name.toList ++ '=' :: o.value.print

theorem printAll_singleton (o : TagOption) : printAll [o] = o.print := by
  obtain ⟨name, value, span⟩ := o
  exact congrArg (name.toList ++ '=' :: ·) (List.append_nil _)

theorem printAll_cons_cons (o o' : TagOption) (os : List TagOption) :
    printAll (o :: o' :: os) = o.print ++ ',' :: printAll (o' :: os) := by
  obtain ⟨name, value, span⟩ := o
  obtain ⟨name', value', span'⟩ := o'
  rw [TagOption.print, List.append_assoc]
  rfl

theorem printAll_cons (o : TagOption) (os : List TagOption) :
    ∃ tail, printAll (o :: os) = o.name.toList ++ tail := by
  obtain ⟨name, value, span⟩ := o
  exact ⟨_, rfl⟩

/-- Options with one name and one value, up to places. -/
def Same (a b : TagOption) : Prop := a.name = b.name ∧ a.value.unplaced = b.value.unplaced

theorem unplacedAll_eq {as bs : List TagOption} (h : List.Forall₂ Same as bs) :
    unplacedAll as = unplacedAll bs := by
  induction h with
  | nil => rfl
  | @cons a b _ _ he _ ih =>
    obtain ⟨_, _, _⟩ := a
    obtain ⟨_, _, _⟩ := b
    obtain ⟨rfl, hv⟩ := he
    rw [unplacedAll, unplacedAll, hv, ih]

end TagOption

namespace Branch

/-- A branch behind its opening. -/
def print (opening : String) (b : Branch) : List Char :=
  opening.toList ++ (b.condition.print ++ ')' :: '>' :: Element.printAll b.body)

theorem printAll_cons (b : Branch) (bs : List Branch) : printAll (b :: bs) = b.print "<if(" ++ printMore bs := by
  obtain ⟨condition, body, span⟩ := b
  simp [printAll, print]

theorem printMore_cons (b : Branch) (bs : List Branch) :
    printMore (b :: bs) = b.print "<elseif(" ++ printMore bs := by
  obtain ⟨condition, body, span⟩ := b
  simp [printMore, print]

/-- Branches with one condition and one body, up to places. -/
def Same (a b : Branch) : Prop :=
  a.condition.unplaced = b.condition.unplaced ∧ Element.unplacedAll a.body = Element.unplacedAll b.body

theorem unplacedAll_eq {as bs : List Branch} (h : List.Forall₂ Same as bs) : unplacedAll as = unplacedAll bs := by
  induction h with
  | nil => rfl
  | @cons a b _ _ he _ ih =>
    obtain ⟨_, _, _⟩ := a
    obtain ⟨_, _, _⟩ := b
    obtain ⟨hc, hb⟩ := he
    rw [unplacedAll, unplacedAll, hc, hb, ih]

end Branch

/-- The `else` body of a conditional. -/
def Print.otherwise : Option (List Element) → List Char
  | none => []
  | some body => ['<', 'e', 'l', 's', 'e', '>'] ++ Element.printAll body

namespace Element

theorem print_choice (b : Branch) (bs : List Branch) (otherwise : Option (List Element)) :
    (Element.choice (b :: bs) otherwise).print =
      b.print "<if(" ++ (Branch.printMore bs ++ (Print.otherwise otherwise ++ "<endif>".toList)) := by
  rw [Element.print.eq_def]
  dsimp only
  rw [Branch.printAll_cons, List.append_assoc]
  cases otherwise <;> rfl

/-- Elements other than text start with a tag. -/
theorem print_tag {e : Element} (he : ¬ e.IsText) : ∃ more, e.print = '<' :: more := by
  cases e with
  | text s => exact absurd trivial he
  | tag value options span => exact ⟨_, by rw [Element.print]⟩
  | choice branches otherwise =>
    rw [Element.print.eq_def]
    cases branches with
    | nil => cases otherwise <;> exact ⟨_, rfl⟩
    | cons b branches =>
      obtain ⟨condition, body, span⟩ := b
      dsimp only
      exact ⟨_, by rw [Branch.printAll, List.cons_append]⟩

theorem print_unbarred (e : Element) {c : List Char} (h : Unbarred c) : Unbarred (e.print ++ c) := by
  by_cases he : e.IsText
  · cases e with
    | text s => exact h.text s.toList
    | _ => cases he
  · obtain ⟨more, hm⟩ := print_tag he
    rw [hm]
    exact .stop (.inl rfl) _

theorem printAll_unbarred (es : List Element) {c : List Char} (h : Unbarred c) :
    Unbarred (Element.printAll es ++ c) := by
  induction es with
  | nil => exact h
  | cons e es ih =>
    rw [Element.printAll, List.append_assoc]
    exact print_unbarred e ih

theorem isText_unplaced (e : Element) : e.unplaced.IsText ↔ e.IsText := by
  cases e <;> rfl

theorem joinTexts_cons {e : Element} (he : ¬ e.IsText) (es : List Element) :
    joinTexts (e :: es) = e :: joinTexts es := by
  cases e with
  | text s => exact absurd trivial he
  | _ => rfl

theorem prepend_cons {s : String} (hs : s ≠ "") {es : List Element} (h : ∀ next ∈ es.head?, ¬ next.IsText) :
    prepend s es = .text s :: es := by
  cases es with
  | nil => simp [prepend, hs]
  | cons e es =>
    cases e with
    | text t => exact absurd trivial (h _ rfl)
    | _ => simp [prepend, hs]

theorem unplaced_choice (bs : List Branch) (otherwise : Option (List Element)) :
    (Element.choice bs otherwise).unplaced = .choice (Branch.unplacedAll bs) (otherwise.map unplacedAll) := by
  rw [Element.unplaced.eq_def]
  cases otherwise <;> rfl

/-- Whether a body starts with text does not depend on places. -/
theorem head_unplacedAll {es es' : List Element} (h : unplacedAll es' = unplacedAll es)
    (hnext : ∀ next ∈ es.head?, ¬ next.IsText) : ∀ next ∈ es'.head?, ¬ next.IsText := by
  rintro next hn ht
  cases es' with
  | nil => cases hn
  | cons e' es' =>
    cases hn
    cases es with
    | nil => cases h
    | cons e es =>
      obtain ⟨he, -⟩ := List.cons_eq_cons.mp h
      exact hnext e rfl ((isText_unplaced e).mp (he ▸ (isText_unplaced next).mpr ht))

end Element

namespace Reader

variable {c d : List Char} {x : Char} {n : Nat} {nested : Bool}

/-- A body without a bar does not start with a parameter. -/
theorem parameter_none (h : Unbarred c) : Takes parameter c c (· = none) := by
  have hfound : Fails (do blanks; let p ← name .cutOff; blanks; expect "|"; return p) c := by
    refine .bind blanks_takes fun _ _ => ?_
    have h := h.dropWhile (p := Text.isBlank) (by decide) (by decide)
    by_cases hx : ∀ x ∈ (c.dropWhile Text.isBlank).head?, startsName x = false
    · exact (name_fails hx).first
    · obtain ⟨x, hx, hs⟩ : ∃ x ∈ (c.dropWhile Text.isBlank).head?, startsName x = true := by simpa using hx
      refine .bind (name_takes_longest hx hs) fun _ _ => .bind blanks_takes fun _ _ => (expect_fails (isPrefixOf_head rfl ?_)).first
      exact ((h.dropWhile (by decide) (by decide)).dropWhile (by decide) (by decide)).head_ne
  unfold parameter
  exact (optional_none hfound).bind_eq (.pure rfl)

theorem parameter_some {p : String} (hp : isName p = true) :
    Takes parameter (Print.parameter (some p) ++ c) c (· = some p) := by
  have hfound : Takes (do blanks; let p ← name .cutOff; blanks; expect "|"; return p)
      (p.toList ++ '|' :: ' ' :: c) (' ' :: c) (· = p) := by
    refine (blanks_none (not_blank_of_isName hp _)).bind fun _ _ => ?_
    refine (name_takes hp _ fun x hx => by cases hx; rfl).bind_eq ?_
    refine (blanks_none fun x hx => by cases hx; rfl).bind fun _ _ => ?_
    exact (expect_next rfl).bind fun _ _ => .pure rfl
  rw [Print.parameter, List.append_assoc, parameter]
  refine .bind_eq (a := some p) ((optional_takes hfound).mono fun o ⟨q, ho, hq⟩ => by rw [ho, hq]) ?_
  exact (accept_next rfl).bind_eq (.pure rfl)

/-! ## Bodies -/

/-- Text behind a body: the end of the source, the brace of an anonymous template, or the tag of a branch. -/
inductive EndsBody (nested : Bool) : List Char → Prop where
  | source (h : nested = false) : EndsBody nested []
  | brace (h : nested = true) (d : List Char) : EndsBody nested ('\x7d' :: d)
  | elseif (d : List Char) : EndsBody nested ("<elseif(".toList ++ d)
  | otherwise (d : List Char) : EndsBody nested ("<else>".toList ++ d)
  | endif (d : List Char) : EndsBody nested ("<endif>".toList ++ d)

theorem EndsBody.text (h : EndsBody nested d) : EndsText nested d := by
  cases h with
  | source h => exact nofun
  | brace h d => exact fun x hx => by cases hx; exact .inr ⟨h, rfl⟩
  | elseif d => exact .tag _
  | otherwise d => exact .tag _
  | endif d => exact .tag _

theorem elements_end (h : EndsBody nested d) : Takes (elements (n + 1) nested) d d (· = []) := by
  rw [elements]
  refine .get_bind fun offset => ?_
  have hend : (List.isEmpty d || (nested && (Cursor.mk d offset).startsWith "\x7d") ||
      atBranchTag ⟨d, offset⟩) = true := by
    cases h with
    | source h => rfl
    | brace h d => subst h; rfl
    | elseif d => cases nested <;> rfl
    | otherwise d => cases nested <;> rfl
    | endif d => cases nested <;> rfl
  rw [if_pos hend]
  exact .pure rfl

/-- Elements that are read as they are printed, once neighbouring texts are joined. -/
def ReadsElements (es : List Element) : Prop :=
  ∀ ⦃nested : Bool⦄ ⦃d : List Char⦄ (n : Nat), 16 * (Element.printAll es).length < n → EndsBody nested d →
    Takes (elements n nested) (Element.printAll es ++ d) d
      fun es' => Element.unplacedAll (Element.joinTexts es') = Element.unplacedAll es

/-- A body that is read as it is printed. -/
theorem ReadsElements.body {es : List Element} (h : ReadsElements es) (hn : 16 * (Element.printAll es).length + 1 < n)
    (hd : EndsBody nested d) : Takes (body n nested) (Element.printAll es ++ d) d
      (Element.unplacedAll · = Element.unplacedAll es) := by
  obtain ⟨n, rfl⟩ : ∃ k, n = k + 1 := ⟨n - 1, by omega⟩
  rw [Reader.body]
  exact (h n (by omega) hd).map fun es' hes => hes

theorem ReadsElements.nil : ReadsElements [] := by
  intro nested d n hn hd
  obtain ⟨n, rfl⟩ : ∃ k, n = k + 1 := ⟨n - 1, by omega⟩
  exact (elements_end hd).mono fun es' hes => by
    subst hes
    rfl

/-- An element other than text, behind which reading may go on. -/
def ReadsElement (e : Element) : Prop :=
  ∀ ⦃nested : Bool⦄ ⦃d d' : List Char⦄ ⦃P Q : List Element → Prop⦄ (n : Nat), 16 * e.print.length ≤ n →
    Takes (elements n nested) d d' P → (∀ e' es, e'.unplaced = e.unplaced → P es → Q (e' :: es)) →
    Takes (elements (n + 1) nested) (e.print ++ d) d' Q

theorem ReadsElements.cons {e : Element} {es : List Element} (he : ¬ e.IsText) (h : ReadsElement e)
    (hes : ReadsElements es) : ReadsElements (e :: es) := by
  intro nested d n hn hd
  obtain ⟨more, hm⟩ := Element.print_tag he
  have hpos : 1 ≤ e.print.length := by rw [hm]; exact Nat.succ_le_succ (Nat.zero_le _)
  rw [Element.printAll, List.length_append] at hn
  obtain ⟨n, rfl⟩ : ∃ k, n = k + 1 := ⟨n - 1, by omega⟩
  rw [Element.printAll, List.append_assoc]
  refine h n (by omega) (hes n (by omega) hd) fun e' es' he' hes' => ?_
  have ht : ¬ e'.IsText := fun ht => he ((Element.isText_unplaced e).mp (he' ▸ (Element.isText_unplaced e').mpr ht))
  rw [Element.joinTexts_cons ht, Element.unplacedAll, he', hes', Element.unplacedAll]

theorem ReadsElements.text {s : String} {es : List Element} (hs : s ≠ "")
    (hnext : ∀ next ∈ es.head?, ¬ next.IsText) (hes : ReadsElements es) : ReadsElements (.text s :: es) := by
  intro nested d n hn hd
  have hprint : Element.printAll (.text s :: es) = s.toList.flatMap Print.textChar ++ Element.printAll es := rfl
  rw [hprint, List.length_append] at hn
  rw [hprint, List.append_assoc]
  have hend : EndsText nested (Element.printAll es ++ d) := by
    cases es with
    | nil => exact hd.text
    | cons e es =>
      obtain ⟨more, hm⟩ := Element.print_tag (hnext e rfl)
      rw [Element.printAll, hm]
      exact .tag _
  refine (elements_prepend hend s.toList (by omega) fun m hm => hes m (by omega) hd).mono ?_
  rintro es' ⟨more, hm, hjoin⟩
  rw [hjoin, String.ofList_toList, Element.prepend_cons hs (Element.head_unplacedAll hm hnext),
    Element.unplacedAll, hm]
  rfl

/-! ## Tags -/

/-- Options that are read as they are printed. -/
def ReadsOptions (os : List TagOption) : Prop :=
  ∀ o ∈ os, isName o.name = true ∧ Starts o.value.print ∧ Spells false o.value.print o.value

theorem ReadsOptions.not_blank {o : TagOption} {os : List TagOption} (h : ReadsOptions (o :: os)) (d : List Char) :
    ∀ x ∈ (TagOption.printAll (o :: os) ++ d).head?, Text.isBlank x = false := by
  obtain ⟨tail, ht⟩ := TagOption.printAll_cons o os
  rw [ht, List.append_assoc]
  exact not_blank_of_isName (h o List.mem_cons_self).1 _

/-- One option behind any blanks, and what is read behind it. -/
theorem option_takes {o : TagOption} (hname : isName o.name = true) (hs : Starts o.value.print)
    (hv : Spells false o.value.print o.value) {y : Char} (hy : y = ',' ∨ y = '>')
    {P : List TagOption → Prop} (hc : c.dropWhile Text.isBlank = o.print ++ y :: d)
    (hn : 16 * o.print.length ≤ n) {d' : List Char}
    (h : Takes (do if ← accept "," then options n else return [] : Reader (List TagOption)) (y :: d) d' P) :
    Takes (options (n + 1)) c d' fun os => ∃ o' rest, os = o' :: rest ∧ o'.Same o ∧ P rest := by
  have hends : EndsExpression false (y :: d) := by
    rcases hy with rfl | rfl
    · exact .comma d
    · exact .of_sign false (.inr (.inr (.inl rfl))) d
  rw [TagOption.print, List.length_append, List.length_cons] at hn
  rw [TagOption.print, List.append_assoc, List.cons_append] at hc
  rw [options]
  refine blanks_takes.bind fun _ _ => .offset_bind fun start => ?_
  rw [hc]
  refine (name_takes hname _ fun x hx => by cases hx; rfl).bind_eq (.offset_bind fun stop => ?_)
  refine (blanks_none fun x hx => by cases hx; rfl).bind fun _ _ => (expect_next rfl).bind fun _ _ => ?_
  refine (blanks_none (hs.not_blank _)).bind fun _ _ => (hv n (by omega) hends).bind fun v hv => ?_
  refine (blanks_none fun x hx => by cases hx; rcases hy with rfl | rfl <;> rfl).bind fun _ _ => ?_
  exact h.bind fun rest hrest => .pure ⟨_, rest, rfl, ⟨rfl, hv⟩, hrest⟩

/-- The options of a tag, behind any blanks. -/
theorem options_takes {o : TagOption} {os : List TagOption} (h : ReadsOptions (o :: os))
    (hc : c.dropWhile Text.isBlank = TagOption.printAll (o :: os) ++ '>' :: d)
    (hn : 16 * (TagOption.printAll (o :: os)).length < n) :
    Takes (options n) c ('>' :: d) (List.Forall₂ TagOption.Same · (o :: os)) := by
  obtain ⟨n, rfl⟩ : ∃ k, n = k + 1 := ⟨n - 1, by omega⟩
  obtain ⟨hname, hs, hv⟩ := h o List.mem_cons_self
  induction os generalizing o c n with
  | nil =>
    rw [TagOption.printAll_singleton] at hc hn
    refine (option_takes hname hs hv (.inr rfl) hc (by omega) (P := (· = []))
      ((accept_refuses (isPrefixOf_head (x := ',') rfl (by simp))).bind_eq (.pure rfl))).mono ?_
    rintro _ ⟨o', _, rfl, ho, rfl⟩
    exact .cons ho .nil
  | cons o' os ih =>
    rw [TagOption.printAll_cons_cons, List.append_assoc, List.cons_append] at hc
    rw [TagOption.printAll_cons_cons, List.length_append, List.length_cons] at hn
    have ho : ReadsOptions (o' :: os) := (List.forall_mem_cons.mp h).2
    obtain ⟨hname', hs', hv'⟩ := ho o' List.mem_cons_self
    obtain ⟨m, rfl⟩ : ∃ k, n = k + 1 := ⟨n - 1, by omega⟩
    refine (option_takes hname hs hv (.inl rfl) hc (by omega) (P := (List.Forall₂ TagOption.Same · (o' :: os)))
      ((accept_next rfl).bind_eq ?_)).mono ?_
    · exact ih ho (dropWhile_isBlank (ho.not_blank _)) m (by omega) hname' hs' hv'
    · rintro _ ⟨o'', rest, rfl, hsame, hrest⟩
      exact .cons hsame hrest

theorem tag_takes {value : Expr} (hv : value.Reads true) {os : List TagOption} (ho : ReadsOptions os)
    (span : Span) (hn : 16 * (Element.tag value os span).print.length ≤ n) :
    Takes (tag n) ((Element.tag value os span).print ++ d) d (·.unplaced = (Element.tag value os span).unplaced) := by
  have hclose {x : Char} (hx : x = '>' ∨ x = ';') (c : List Char) : EndsExpression true (x :: c) :=
    .of_sign true (.inr (.inr hx)) c
  obtain ⟨n, rfl⟩ : ∃ k, n = k + 1 := ⟨n - 1, by simp [Element.print] at hn; omega⟩
  have hblank (c : List Char) : Takes blanks (' ' :: (value.print ++ c)) (value.print ++ c) fun _ => True := by
    have h := blanks_takes (c := ' ' :: (value.print ++ c))
    rwa [List.dropWhile_cons_of_pos (by decide), dropWhile_isBlank (hv.starts.not_blank c)] at h
  cases os with
  | nil =>
    have hp : (Element.tag value [] span).print = '<' :: ' ' :: (value.print ++ ['>']) := rfl
    simp only [hp, List.length_cons, List.length_append] at hn
    rw [hp, List.cons_append, List.cons_append, List.append_assoc, List.singleton_append, tag]
    refine .offset_bind fun start => (expect_next rfl).bind fun _ _ => (hblank _).bind fun _ _ => ?_
    refine (hv.spells n (by omega) (hclose (.inl rfl) d)).bind fun v hv => ?_
    refine (blanks_none fun x hx => by cases hx; rfl).bind fun _ _ => ?_
    refine .bind_eq (a := []) ((accept_refuses (isPrefixOf_head (x := ';') rfl (by simp))).bind_eq (.pure rfl)) ?_
    refine (expect_next rfl).bind fun _ _ => .offset_bind fun stop => .pure ?_
    rw [Element.unplaced, hv, Element.unplaced]
  | cons o os =>
    have hp : (Element.tag value (o :: os) span).print =
        '<' :: ' ' :: (value.print ++ (';' :: ' ' :: TagOption.printAll (o :: os) ++ ['>'])) := rfl
    simp only [hp, List.length_cons, List.length_append] at hn
    simp only [hp, List.cons_append, List.append_assoc]
    rw [tag]
    refine .offset_bind fun start => (expect_next rfl).bind fun _ _ => (hblank _).bind fun _ _ => ?_
    refine (hv.spells n (by omega) (hclose (.inr rfl) _)).bind fun v hv => ?_
    refine (blanks_none fun x hx => by cases hx; rfl).bind fun _ _ => ?_
    refine .bind (P := (List.Forall₂ TagOption.Same · (o :: os))) (d := '>' :: d)
      ((accept_next rfl).bind_eq (options_takes ho ?_ (by omega))) fun os' hos => ?_
    · exact (List.dropWhile_cons_of_pos (by decide)).trans (dropWhile_isBlank (ho.not_blank _))
    · refine (expect_next rfl).bind fun _ _ => .offset_bind fun stop => .pure ?_
      rw [Element.unplaced, hv, TagOption.unplacedAll_eq hos, Element.unplaced]

/-- Elements that a tag starts, other than text. -/
theorem readsElement_tag {value : Expr} (hv : value.Reads true) {os : List TagOption} (ho : ReadsOptions os)
    (span : Span) : ReadsElement (.tag value os span) := by
  intro nested d d' P Q n hn hes hgo
  have ht := tag_takes (d := d) hv ho span hn
  have hp : ∃ more, (Element.tag value os span).print ++ d = '<' :: ' ' :: more := ⟨_, by rw [Element.print]; rfl⟩
  obtain ⟨more, hp⟩ := hp
  rw [hp] at ht ⊢
  rw [elements]
  refine .get_bind fun offset => ?_
  rw [if_neg (by cases nested <;> simp [Cursor.startsWith, atBranchTag, List.isPrefixOf]),
    if_neg (by simp [Cursor.startsWith, List.isPrefixOf]),
    if_neg (by simp [Cursor.startsWith, List.isPrefixOf]),
    if_neg (by simp [Cursor.startsWith, List.isPrefixOf]),
    if_pos (by simp [Cursor.startsWith, List.isPrefixOf])]
  exact ht.bind fun e' he => hes.bind fun es hes => .pure (hgo e' es he hes)

/-! ## Conditionals -/

/-- A branch that is read as it is printed. -/
def ReadsBranch (b : Branch) : Prop := b.condition.Reads ∧ ReadsElements b.body

theorem branch_takes {b : Branch} (h : ReadsBranch b) {opening : String} (hopen : 4 ≤ opening.toList.length)
    (hn : 16 * (b.print opening).length ≤ n) (hd : EndsBody nested d) :
    Takes (branch n nested opening) (b.print opening ++ d) d (·.Same b) := by
  obtain ⟨hc, hb⟩ := h
  simp only [Branch.print, List.length_append, List.length_cons] at hn
  obtain ⟨n, rfl⟩ : ∃ k, n = k + 1 := ⟨n - 1, by omega⟩
  simp only [Branch.print, List.append_assoc, List.cons_append]
  rw [branch]
  refine .offset_bind fun start => (expect_takes rfl).bind fun _ _ => ?_
  refine (blanks_none (hc.opens.not_blank _)).bind fun _ _ => (hc.condition.takes (by omega)).bind fun t ht => ?_
  refine (blanks_none fun x hx => by cases hx; rfl).bind fun _ _ => ?_
  refine (expect_takes (s := [')', '>']) rfl).bind fun _ _ => .offset_bind fun stop => ?_
  exact (hb.body (by omega) hd).bind fun es hes => .pure ⟨ht, hes⟩

/-- Where a branch follows, the body in front of it ends. -/
theorem EndsBody.more (bs : List Branch) (hd : EndsBody nested d) : EndsBody nested (Branch.printMore bs ++ d) := by
  cases bs with
  | nil => exact hd
  | cons b bs =>
    rw [Branch.printMore_cons, Branch.print, List.append_assoc, List.append_assoc]
    exact .elseif _

theorem branches_takes {bs : List Branch} (h : ∀ b ∈ bs, ReadsBranch b)
    (hn : 16 * (Branch.printMore bs).length < n) (hd : EndsBody nested d)
    (hend : "<elseif(".toList.isPrefixOf d = false) :
    Takes (branches n nested) (Branch.printMore bs ++ d) d (List.Forall₂ Branch.Same · bs) := by
  induction bs generalizing n with
  | nil =>
    obtain ⟨n, rfl⟩ : ∃ k, n = k + 1 := ⟨n - 1, by omega⟩
    rw [branches, Branch.printMore, List.nil_append]
    refine .startsWith_bind ?_
    rw [hend]
    exact .pure .nil
  | cons b bs ih =>
    obtain ⟨hb, hbs⟩ := List.forall_mem_cons.mp h
    rw [Branch.printMore_cons, List.length_append] at hn
    obtain ⟨n, rfl⟩ : ∃ k, n = k + 1 := ⟨n - 1, by omega⟩
    have hopen : "<elseif(".toList.isPrefixOf (b.print "<elseif(" ++ (Branch.printMore bs ++ d)) = true := by
      rw [List.isPrefixOf_iff_prefix, Branch.print, List.append_assoc]
      exact List.prefix_append _ _
    have hlen : 8 ≤ (b.print "<elseif(").length := by
      rw [Branch.print, List.length_append]
      exact Nat.le_add_right 8 _
    rw [Branch.printMore_cons, List.append_assoc, branches]
    refine .startsWith_bind ?_
    rw [if_pos hopen]
    refine (branch_takes hb (by decide) (by omega) (hd.more bs)).bind fun b' hb' => ?_
    exact (ih hbs (by omega)).bind fun bs' hbs' => .pure (.cons hb' hbs')

/-- The end of a conditional behind its branches. -/
theorem otherwise_takes {otherwise : Option (List Element)} (ho : ∀ es ∈ otherwise, ReadsElements es)
    (hn : 16 * (Print.otherwise otherwise).length ≤ n) :
    Takes (do
        if ← accept "<else>" then return some (← body n nested)
        return none : Reader (Option (List Element)))
      (Print.otherwise otherwise ++ ("<endif>".toList ++ d)) ("<endif>".toList ++ d)
      (·.map Element.unplacedAll = otherwise.map Element.unplacedAll) := by
  cases otherwise with
  | none => exact (accept_refuses rfl).bind_eq (.pure rfl)
  | some es =>
    simp only [Print.otherwise, List.length_append, List.length_cons, List.length_nil] at hn
    rw [Print.otherwise, List.append_assoc]
    refine (accept_takes rfl).bind_eq (((ho es rfl).body (by omega) (.endif d)).bind fun es' hes => .pure ?_)
    exact congrArg some hes

theorem choice_takes (nested : Bool) {b : Branch} {bs : List Branch} {otherwise : Option (List Element)}
    (hbs : ∀ b' ∈ b :: bs, ReadsBranch b') (ho : ∀ es ∈ otherwise, ReadsElements es)
    (hn : 16 * (Element.choice (b :: bs) otherwise).print.length ≤ n) :
    Takes (choice n nested) ((Element.choice (b :: bs) otherwise).print ++ d) d
      (·.unplaced = (Element.choice (b :: bs) otherwise).unplaced) := by
  obtain ⟨hb, hbs⟩ := List.forall_mem_cons.mp hbs
  have hlen : 4 ≤ (b.print "<if(").length := by
    rw [Branch.print, List.length_append]
    exact Nat.le_add_right 4 _
  have hend : "<endif>".toList.length = 7 := rfl
  simp only [Element.print_choice, List.length_append, hend] at hn
  obtain ⟨n, rfl⟩ : ∃ k, n = k + 1 := ⟨n - 1, by omega⟩
  have htail : EndsBody nested (Print.otherwise otherwise ++ ("<endif>".toList ++ d)) ∧
      "<elseif(".toList.isPrefixOf (Print.otherwise otherwise ++ ("<endif>".toList ++ d)) = false := by
    cases otherwise with
    | none => exact ⟨.endif d, rfl⟩
    | some es =>
      rw [Print.otherwise, List.append_assoc]
      exact ⟨.otherwise _, rfl⟩
  simp only [Element.print_choice, List.append_assoc]
  rw [choice]
  refine (branch_takes hb (by decide) (by omega) (htail.1.more bs)).bind fun b' hb' => ?_
  refine (branches_takes hbs (by omega) htail.1 htail.2).bind fun bs' hbs' => ?_
  refine (otherwise_takes ho (by omega)).bind fun o hother => (expect_takes rfl).bind fun _ _ => .pure ?_
  rw [Element.unplaced_choice, Element.unplaced_choice, Branch.unplacedAll_eq (.cons hb' hbs'), hother]

theorem readsElement_choice {bs : List Branch} {otherwise : Option (List Element)} (hne : bs ≠ [])
    (hbs : ∀ b ∈ bs, ReadsBranch b) (ho : ∀ es ∈ otherwise, ReadsElements es) :
    ReadsElement (.choice bs otherwise) := by
  intro nested d d' P Q n hn hes hgo
  cases bs with
  | nil => exact absurd rfl hne
  | cons b bs =>
    have ht := choice_takes nested (d := d) hbs ho hn
    have hp : ∃ more, (Element.choice (b :: bs) otherwise).print ++ d = '<' :: 'i' :: 'f' :: '(' :: more :=
      ⟨_, by rw [Element.print_choice]; rfl⟩
    obtain ⟨more, hp⟩ := hp
    rw [hp] at ht ⊢
    rw [elements]
    refine .get_bind fun offset => ?_
    rw [if_neg (by cases nested <;> simp [Cursor.startsWith, atBranchTag, List.isPrefixOf]),
      if_neg (by simp [Cursor.startsWith, List.isPrefixOf]),
      if_neg (by simp [Cursor.startsWith, List.isPrefixOf]),
      if_pos (by simp [Cursor.startsWith, List.isPrefixOf])]
    exact ht.bind fun e' he => hes.bind fun es hes => .pure (hgo e' es he hes)

/-! ## Anonymous templates -/

theorem anonymous_takes {parameter : Option String} (hp : ∀ p ∈ parameter, isName p = true)
    {es : List Element} (hes : ReadsElements es) (span : Span)
    (hn : 16 * (Expr.anonymous parameter es span).print.length ≤ n + 8) (start : Nat) :
    Takes (anonymous n start) ((Expr.anonymous parameter es span).print ++ d) d
      (·.unplaced = (Expr.anonymous parameter es span).unplaced) := by
  simp only [Expr.print, List.length_cons, List.length_append] at hn
  obtain ⟨n, rfl⟩ : ∃ k, n = k + 1 := ⟨n - 1, by omega⟩
  simp only [Expr.print, List.cons_append, List.append_assoc, List.nil_append]
  rw [anonymous]
  have hparameter : Takes Reader.parameter (Print.parameter parameter ++ (Element.printAll es ++ '\x7d' :: d))
      (Element.printAll es ++ '\x7d' :: d) (· = parameter) := by
    cases parameter with
    | none => exact parameter_none (Element.printAll_unbarred es (.stop (.inr rfl) d))
    | some p => exact parameter_some (hp p rfl)
  refine (expect_next rfl).bind fun _ _ => hparameter.bind_eq ?_
  refine (hes.body (by omega) (.brace rfl d)).bind fun es' hes => ?_
  refine (expect_next rfl).bind fun _ _ => .offset_bind fun stop => .pure ?_
  rw [Expr.unplaced, hes, Expr.unplaced]

theorem SpellsPrimary.anonymous {parameter : Option String} (hp : ∀ p ∈ parameter, isName p = true)
    {es : List Element} (hes : ReadsElements es) (span : Span) :
    SpellsPrimary (Expr.anonymous parameter es span).print (.anonymous parameter es span) := by
  intro d n hn _ _
  obtain ⟨n, rfl⟩ : ∃ k, n = k + 1 := ⟨n - 1, by simp only [Expr.print, List.length_cons] at hn; omega⟩
  have hread := anonymous_takes (n := n) (d := d) hp hes span (by omega)
  rw [Expr.print, List.cons_append] at hread ⊢
  rw [primary]
  exact .offset_bind fun start => .peek_bind (hread start)

theorem SpellsTemplate.anonymous {parameter : Option String} (hp : ∀ p ∈ parameter, isName p = true)
    {es : List Element} (hes : ReadsElements es) (span : Span) :
    SpellsTemplate (Expr.anonymous parameter es span).print (.anonymous parameter es span) := by
  intro d n hn
  obtain ⟨n, rfl⟩ : ∃ k, n = k + 1 := ⟨n - 1, by simp only [Expr.print, List.length_cons] at hn; omega⟩
  have hread := anonymous_takes (n := n) (d := d) hp hes span (by omega)
  rw [Expr.print, List.cons_append] at hread ⊢
  rw [mapTarget]
  exact .offset_bind fun start => .peek_bind (hread start)

end Reader

end Stencil
