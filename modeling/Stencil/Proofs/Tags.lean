import Stencil.Proofs.Rereading
import Stencil.Template.Reading
/-! Tags that start with a name. Wherever elements are read, such a tag is read as the tag of an expression, unless it is
one of those of conditionals. Where it holds a name alone, it writes the attribute of this name. -/

namespace Stencil

namespace Reader

variable {name : String} {cs d d' d'' : List Char} {x y : Char} {n : Nat} {nested : Bool} {P : Element → Prop}
  {Q R : List Element → Prop}

/-- A sign that is no part of names ends a name, so tags that start otherwise are other ones. -/
theorem isPrefixOf_tag (hname : isName name = true) {word token : List Char} (hword : word.all continuesName = true)
    (hx : continuesName x = false) (hy : continuesName y = false) (ht : token = '<' :: (word ++ [x]))
    (h : x = y → word ≠ name.toList) (d : List Char) : token.isPrefixOf ('<' :: (name.toList ++ y :: d)) = false := by
  obtain ⟨z, rest, hl, -, hall⟩ := isName_iff.mp hname
  rw [Bool.eq_false_iff, ne_eq, List.isPrefixOf_iff_prefix, ht]
  rintro ⟨more, hm⟩
  have heq : word ++ x :: more = name.toList ++ y :: d := by simpa using hm
  have hsplit := takeWhile_append (d := y :: d) hall fun z hz => by cases hz; exact hy
  have hread := takeWhile_append (d := x :: more) hword fun z hz => by cases hz; exact hx
  rw [heq, hl] at hread
  have hopen : y :: d = x :: more := hsplit.2.symm.trans hread.2
  cases hopen
  exact h rfl (by rw [hl]; exact hread.1.symm.trans hsplit.1)

/-- A name and the sign behind it with which no tag of a conditional starts. -/
structure StartsTag (name : String) (y : Char) : Prop where
  isName : isName name = true
  ends : continuesName y = false
  noConditional : y = '(' → name ≠ "if" ∧ name ≠ "elseif"
  noBranch : y = '>' → name ≠ "else" ∧ name ≠ "endif"

/-- A tag that starts with a name is read, and reading goes on behind it. -/
theorem elements_tag (h : StartsTag name y) (ht : Takes (tag n) ('<' :: (name.toList ++ y :: d)) d' P)
    (hes : Takes (elements n nested) d' d'' Q) (hgo : ∀ e es, P e → Q es → R (e :: es)) :
    Takes (elements (n + 1) nested) ('<' :: (name.toList ++ y :: d)) d'' R := by
  rw [elements]
  refine .get_bind fun offset => ?_
  generalize hsource : '<' :: (name.toList ++ y :: d) = source at ht ⊢
  have hother (token word : String) {x : Char} (hword : word.toList.all continuesName = true)
      (hx : continuesName x = false) (htoken : token.toList = '<' :: (word.toList ++ [x]))
      (hne : x = y → name ≠ word) : (Cursor.mk source offset).startsWith token = false :=
    hsource ▸ isPrefixOf_tag h.isName hword hx h.ends htoken
      (fun hxy he => hne hxy (String.toList_inj.mp he).symm) _
  have hnonempty : name ≠ "" := by
    rintro rfl
    cases h.isName
  have hbranch : atBranchTag ⟨source, offset⟩ = false := by
    rw [atBranchTag, hother "<elseif(" "elseif" (by decide) (by decide) rfl fun hy => (h.noConditional hy.symm).2,
      hother "<else>" "else" (by decide) (by decide) rfl fun hy => (h.noBranch hy.symm).1,
      hother "<endif>" "endif" (by decide) (by decide) rfl fun hy => (h.noBranch hy.symm).2]
    rfl
  have hbrace : (Cursor.mk source offset).startsWith "\x7d" = false := by
    rw [← hsource]
    simp [Cursor.startsWith, List.isPrefixOf]
  have hempty : source.isEmpty = false := by rw [← hsource]; rfl
  have hcomment := hother "<!" "" rfl (by decide) rfl fun _ => hnonempty
  have hspecial := hother "<\\" "" rfl (by decide) rfl fun _ => hnonempty
  have hif := hother "<if(" "if" (by decide) (by decide) rfl fun hy => (h.noConditional hy.symm).1
  rw [if_neg (by simp [hempty, hbranch, hbrace]), if_neg (by simp [hcomment]), if_neg (by simp [hspecial]),
    if_neg (by simp [hif]), if_pos (by rw [← hsource]; simp [Cursor.startsWith, List.isPrefixOf])]
  exact ht.bind fun e he => hes.bind fun es hes => .pure (hgo e es he hes)

/-- A source that is nothing but a tag. -/
theorem readAll_tag (h : StartsTag name y) (hcs : cs = '<' :: (name.toList ++ y :: d)) (hP : ∀ e, P e → ¬e.IsText)
    (ht : ∀ n, 16 * cs.length ≤ n → Takes (tag n) cs [] P) :
    ∃ e, Element.readAll (String.ofList cs) = .ok [e] ∧ P e := by
  have hes : Takes (elements (16 * cs.length + 15) false) cs [] fun es => ∃ e, es = [e] ∧ P e := by
    have ht := ht _ (Nat.le_add_right _ 14)
    rw [hcs] at ht ⊢
    exact elements_tag h ht (elements_end (.source rfl)) fun e es he hes => ⟨e, congrArg (e :: ·) hes, he⟩
  have hbody : Takes (body (16 * (cs.length + 1)) false) cs [] fun es => ∃ e, es = [e] ∧ P e := by
    rw [show 16 * (cs.length + 1) = 16 * cs.length + 15 + 1 from rfl, body]
    refine hes.map ?_
    rintro _ ⟨e, rfl, he⟩
    refine ⟨e, ?_, he⟩
    cases e with
    | text s => exact absurd trivial (hP _ he)
    | tag | choice => rfl
  have hread : Takes (template (16 * (cs.length + 1))) cs [] fun es => ∃ e, es = [e] ∧ P e :=
    hbody.bind fun es hes => .get_bind fun _ => .pure hes
  obtain ⟨_, hread, e, rfl, he⟩ := run_takes hread
  exact ⟨e, hread, he⟩

/-- An expression in a tag without options. -/
theorem bareTag_takes {e : Expr} (hstarts : Starts cs) (hspells : Spells true cs e) (hn : 16 * (cs.length + 2) ≤ n) :
    Takes (tag n) ('<' :: (cs ++ '>' :: d)) d (·.unplaced = (Element.tag e [] default).unplaced) := by
  obtain ⟨n, rfl⟩ : ∃ k, n = k + 1 := ⟨n - 1, by omega⟩
  rw [tag]
  refine .offset_bind fun start => (expect_next rfl).bind fun _ _ => ?_
  refine (blanks_none (hstarts.not_blank _)).bind fun _ _ => ?_
  refine (hspells n (by omega) (.of_sign true (.inr (.inr (.inl rfl))) d)).bind fun v hv => ?_
  refine (blanks_none fun x hx => by cases hx; rfl).bind fun _ _ => ?_
  refine .bind_eq (a := []) ((accept_refuses (isPrefixOf_head (x := ';') rfl (by simp))).bind_eq (.pure rfl)) ?_
  refine (expect_next rfl).bind fun _ _ => .offset_bind fun stop => .pure ?_
  rw [Element.unplaced, hv, Element.unplaced]

end Reader

/-! ## Trees up to places -/

theorem Element.unplaced_tag {e : Element} {value : Expr} (h : e.unplaced = (Element.tag value [] default).unplaced) :
    ∃ value' s, e = .tag value' [] s ∧ value'.unplaced = value.unplaced := by
  cases e with
  | tag value' options s =>
    simp only [unplaced, tag.injEq] at h
    obtain ⟨hv, ho, -⟩ := h
    cases options with
    | nil => exact ⟨value', s, rfl, hv⟩
    | cons o os =>
      obtain ⟨name, x, t⟩ := o
      rw [TagOption.unplacedAll] at ho
      cases ho
  | text t => cases h
  | choice branches otherwise => cases otherwise <;> cases h

theorem Expr.unplaced_attribute {e : Expr} {name : String} (h : e.unplaced = (Expr.attribute name default).unplaced) :
    ∃ s, e = .attribute name s := by
  rw [unplaced.eq_def, unplaced] at h
  split at h <;> cases h
  exact ⟨_, rfl⟩

/-! ## Tags of attributes -/

/-- Names that stand for an attribute where a tag holds nothing else. -/
structure StandsAlone (name : String) : Prop where
  isName : isName name = true
  noTruth : name ≠ "true" ∧ name ≠ "false"
  noBranch : name ≠ "else" ∧ name ≠ "endif"

/-- Whether elements do nothing but write an attribute. -/
def Element.showsOnly (name : String) : List Element → Bool
  | [.tag (.attribute shown _) [] _] => shown == name
  | _ => false

/-- The tag of a name alone writes the attribute of this name. -/
theorem Element.readAll_attribute {name : String} (h : StandsAlone name) :
    ∃ s₁ s, Element.readAll ("<" ++ name ++ ">") = .ok [.tag (.attribute name s₁) [] s] := by
  have hreads : (Expr.attribute name default).Reads true :=
    Expr.reads true (.attribute name default) ⟨h.isName, h.noTruth⟩
  have hsource : "<" ++ name ++ ">" = String.ofList ('<' :: (name.toList ++ ['>'])) :=
    String.toList_inj.mp (by simp)
  obtain ⟨e, hread, he⟩ := Reader.readAll_tag (d := []) (y := '>') ⟨h.isName, by decide, nofun, fun _ => h.noBranch⟩ rfl
    (fun e he => by obtain ⟨_, _, rfl, -⟩ := Element.unplaced_tag he; exact id) fun n hn =>
      Reader.bareTag_takes (n := n) hreads.starts hreads.spells (by simpa using hn)
  obtain ⟨value, s, rfl, hv⟩ := Element.unplaced_tag he
  obtain ⟨s₁, rfl⟩ := Expr.unplaced_attribute hv
  exact ⟨s₁, s, hsource ▸ hread⟩

/-- These are all names whose tags write attributes. -/
theorem Element.readAll_attribute_iff {name : String} :
    (∃ s₁ s, Element.readAll ("<" ++ name ++ ">") = .ok [.tag (.attribute name s₁) [] s]) ↔ StandsAlone name := by
  refine ⟨?_, Element.readAll_attribute⟩
  rintro ⟨s₁, s, hread⟩
  obtain ⟨⟨⟨-, hname⟩, -⟩, -⟩ := Element.ProperAll.ofRead hread
  have hother (word : String) (hword : (Element.readAll ("<" ++ word ++ ">")).toOption.any (showsOnly word) = false) :
      name ≠ word := by
    rintro rfl
    rw [hread] at hword
    simp [Except.toOption, showsOnly] at hword
  exact ⟨hname, ⟨hother "true" (by decide +kernel), hother "false" (by decide +kernel)⟩,
    ⟨hother "else" (by decide +kernel), hother "endif" (by decide +kernel)⟩⟩

end Stencil
