import Mathlib.Data.List.Basic
import Stencil.Proofs.Assembly
/-! How many operands there are at each address of code. The number does not depend on the path that
leads there, and no instruction takes more. -/

namespace Stencil

namespace Instr

variable {τ ι τ' ι' : Type}

/-- How many operands an instruction takes. -/
def pops : Instr τ ι → Nat
  | .text _ | .pushText _ | .pushTruth _ | .pushAttribute _ | .createAnonymous _ | .jump _ |
    .jumpIfSet _ _ => 0
  | .property _ | .builtin _ | .render | .not | .jumpUnless _ | .storeDefault _ => 1
  | .propertyAt | .and | .or => 2
  | .list count => count
  | .create _ _ passing => passing.slots
  | .createComputed passing => passing.slots + 1
  | .map count => count + 1
  | .write options => options.names.length + 1

/-- How many operands an instruction leaves. -/
def pushes : Instr τ ι → Nat
  | .text _ | .write _ | .jump _ | .jumpUnless _ | .jumpIfSet _ _ | .storeDefault _ => 0
  | _ => 1

/-- How many operands there are behind an instruction. -/
def after (i : Instr τ ι) (height : Nat) : Nat := height - i.pops + i.pushes

/-- Whether the next instruction may follow. -/
def falls : Instr τ ι → Bool
  | .jump _ => false
  | _ => true

variable (f : τ → τ') (g : ι → ι') (i : Instr τ ι)

theorem pops_convert : (i.convert f g).pops = i.pops := by cases i <;> rfl

theorem after_convert : (i.convert f g).after = i.after := by cases i <;> rfl

theorem target?_convert : (i.convert f g).target? = i.target? := by cases i <;> rfl

end Instr

/-- Along some path, code comes to an address with a number of operands. -/
inductive Code.Reaches (c : Code) : Nat → Nat → Prop where
  | start : Reaches c 0 0
  | next {a height l} : Reaches c a height → c.lines[a]? = some l → l.instr.falls = true →
      Reaches c (a + 1) (l.instr.after height)
  | jump {a height l target} : Reaches c a height → c.lines[a]? = some l →
      l.instr.target? = some target → Reaches c target (l.instr.after height)

namespace Template

variable (t : Template)

/-- The number of operands at an address. -/
def height (a : Nat) : Nat := (t.lines.take a).foldl (fun height l => l.instr.after height) 0

/-- At an address there are enough operands, and none where it may jump to. -/
def Steady (a : Nat) : Prop :=
  ∀ l, t.lines[a]? = some l → l.instr.pops ≤ t.height a ∧ ∀ target ∈ l.instr.target?,
    a < target ∧ target ≤ t.lines.length ∧ t.height (a + 1) = 0 ∧ t.height target = 0

variable {t}

theorem height_succ {a : Nat} {l : Line String Code} (hl : t.lines[a]? = some l) :
    t.height (a + 1) = l.instr.after (t.height a) := by
  rw [height, height, List.take_add_one, hl, List.foldl_append]
  rfl

end Template

/-- Between two addresses the number of operands goes from one to another, and all is steady. -/
def Rises (t : Template) (a b height height' : Nat) : Prop :=
  t.height a = height → t.height b = height' ∧ ∀ i, a ≤ i → i < b → t.Steady i

namespace Rises

variable {t : Template} {a b c height height' height'' : Nat} {l : Line String Code}

theorem refl : Rises t a a height height :=
  fun h => ⟨h, fun _ h₁ h₂ => absurd h₂ (Nat.not_lt.mpr h₁)⟩

theorem trans (h₁ : Rises t a b height height') (h₂ : Rises t b c height' height'') :
    Rises t a c height height'' := fun h => by
  obtain ⟨hb, hs₁⟩ := h₁ h
  obtain ⟨hc, hs₂⟩ := h₂ hb
  refine ⟨hc, fun i ha hi => ?_⟩
  rcases Nat.lt_or_ge i b with hlt | hge
  · exact hs₁ i ha hlt
  · exact hs₂ i hge hi

/-- A line that does not jump. -/
theorem line (hl : t.lines[a]? = some l) (ht : l.instr.target? = none) (hp : l.instr.pops ≤ height)
    (he : l.instr.after height = height') : Rises t a (a + 1) height height' := fun h => by
  refine ⟨by rw [t.height_succ hl, h, he], fun i ha hi l' hl' => ?_⟩
  cases Nat.le_antisymm (Nat.le_of_lt_succ hi) ha
  cases hl.symm.trans hl'
  exact ⟨by rw [h]; exact hp, by rw [ht]; exact nofun⟩

/-- A line that may jump, after which no operands are left. -/
theorem branch (hl : t.lines[a]? = some l) {target : Nat} (ht : l.instr.target? = some target)
    (hp : l.instr.pops = height) (he : l.instr.after height = 0) (hlt : a < target)
    (hle : target ≤ t.lines.length) (hz : t.height target = 0) : Rises t a (a + 1) height 0 := fun h => by
  have hn : t.height (a + 1) = 0 := by rw [t.height_succ hl, h, he]
  refine ⟨hn, fun i ha hi l' hl' => ?_⟩
  cases Nat.le_antisymm (Nat.le_of_lt_succ hi) ha
  cases hl.symm.trans hl'
  refine ⟨Nat.le_of_eq (hp.trans h.symm), fun target' hm => ?_⟩
  cases ht.symm.trans hm
  exact ⟨hlt, hle, hn, hz⟩

end Rises

theorem OptionSet.length_names (set : OptionSet) :
    set.names.length = set.separator.toNat + set.format.toNat + set.null.toNat := by
  cases set with
  | mk separator format null => cases separator <;> cases format <;> cases null <;> rfl

variable {t : Template} {o : Origin}

mutual

/-- Code of an expression leaves one operand more. -/
theorem Expr.rises {a b height : Nat} (n : Nat) : (e : Expr) → Segment t a (e.lower o n) b →
    Rises t a b height (height + 1)
  | .attribute _ _, hs => by
      obtain ⟨hl, rfl⟩ := hs.single
      exact .line hl rfl (Nat.zero_le _) rfl
  | .literal _ _, hs => by
      obtain ⟨hl, rfl⟩ := hs.single
      exact .line hl rfl (Nat.zero_le _) rfl
  | .truth _ _, hs => by
      obtain ⟨hl, rfl⟩ := hs.single
      exact .line hl rfl (Nat.zero_le _) rfl
  | .list items _, hs => by
      obtain ⟨mid, h₁, h₂⟩ := hs.split
      obtain ⟨hl, rfl⟩ := h₂.single
      exact (Expr.risesAll n items h₁).trans
        (.line hl rfl (Nat.le_add_left _ _) (congrArg (· + 1) (Nat.add_sub_cancel _ _)))
  | .property target _ _, hs => by
      obtain ⟨mid, h₁, h₂⟩ := hs.split
      obtain ⟨hl, rfl⟩ := h₂.single
      exact (Expr.rises n target h₁).trans (.line hl rfl (Nat.le_add_left _ _) rfl)
  | .propertyAt target key _, hs => by
      obtain ⟨mid, h₁, hs⟩ := hs.split
      obtain ⟨mid', h₂, h₃⟩ := hs.split
      obtain ⟨hl, rfl⟩ := h₃.single
      exact ((Expr.rises n target h₁).trans (Expr.rises _ key h₂)).trans
        (.line hl rfl (Nat.le_add_left _ _) rfl)
  | .call _ arguments _, hs => by
      obtain ⟨mid, h₁, h₂⟩ := hs.split
      obtain ⟨hl, rfl⟩ := h₂.single
      exact (Arguments.rises n arguments h₁).trans
        (.line hl rfl (Nat.le_add_left _ _) (congrArg (· + 1) (Nat.add_sub_cancel _ _)))
  | .callComputed name arguments _, hs => by
      obtain ⟨mid, h₁, hs⟩ := hs.split
      obtain ⟨hl, hs⟩ := hs.cons
      obtain ⟨mid', h₂, h₃⟩ := hs.split
      obtain ⟨hl', rfl⟩ := h₃.single
      have hr : Rises t mid (mid + 1) (height + 1) (height + 1) :=
        .line hl rfl (Nat.le_add_left _ _) rfl
      refine ((Expr.rises n name h₁).trans hr).trans
        ((Arguments.rises _ arguments h₂).trans (.line hl' rfl ?_ ?_))
      · change _ + 1 ≤ _
        omega
      · change _ - (_ + 1) + 1 = _
        omega
  | .rendered value _, hs => by
      obtain ⟨mid, h₁, h₂⟩ := hs.split
      obtain ⟨hl, rfl⟩ := h₂.single
      exact (Expr.rises n value h₁).trans (.line hl rfl (Nat.le_add_left _ _) rfl)
  | .builtin _ argument _, hs => by
      obtain ⟨mid, h₁, h₂⟩ := hs.split
      obtain ⟨hl, rfl⟩ := h₂.single
      exact (Expr.rises n argument h₁).trans (.line hl rfl (Nat.le_add_left _ _) rfl)
  | .anonymous _ _ _, hs => by
      obtain ⟨hl, rfl⟩ := hs.single
      exact .line hl rfl (Nat.zero_le _) rfl
  | .map target templates _, hs => by
      obtain ⟨mid, h₁, hs⟩ := hs.split
      obtain ⟨mid', h₂, h₃⟩ := hs.split
      obtain ⟨hl, rfl⟩ := h₃.single
      refine ((Expr.rises n target h₁).trans (Expr.risesAll _ templates h₂)).trans (.line hl rfl ?_ ?_)
      · change _ + 1 ≤ _
        omega
      · change _ - (_ + 1) + 1 = _
        omega

theorem Expr.risesAll {a b height : Nat} (n : Nat) : (es : List Expr) →
    Segment t a (Expr.lowerAll o n es) b → Rises t a b height (height + es.length)
  | [], hs => by
      cases hs.nil
      exact .refl
  | e :: rest, hs => by
      obtain ⟨mid, h₁, h₂⟩ := hs.split
      rw [List.length_cons, Nat.add_comm rest.length, ← Nat.add_assoc]
      exact (Expr.rises n e h₁).trans (Expr.risesAll _ rest h₂)

theorem Arguments.rises {a b height : Nat} (n : Nat) : (as : Arguments) →
    Segment t a (as.lower o n) b → Rises t a b height (height + as.passing.slots)
  | .positional values, hs => Expr.risesAll n values hs
  | .named values, hs => NamedArgument.risesAll n values hs

theorem NamedArgument.risesAll {a b height : Nat} (n : Nat) : (as : List NamedArgument) →
    Segment t a (NamedArgument.lowerAll o n as) b → Rises t a b height (height + 2 * as.length)
  | [], hs => by
      cases hs.nil
      exact .refl
  | ⟨_, value, _⟩ :: rest, hs => by
      obtain ⟨hl, hs⟩ := hs.cons
      obtain ⟨mid, h₁, h₂⟩ := hs.split
      have he (height : Nat) : height + 2 * (rest.length + 1) = height + 1 + 1 + 2 * rest.length := by
        omega
      rw [List.length_cons, he]
      exact (Rises.line hl rfl (Nat.zero_le _) rfl).trans
        ((Expr.rises n value h₁).trans (NamedArgument.risesAll _ rest h₂))

/-- Code of an option leaves one operand more if there is such an option. -/
theorem TagOption.rises {a b height : Nat} (n : Nat) (wanted : String) : (os : List TagOption) →
    Segment t a (TagOption.lower o n wanted os) b →
    Rises t a b height (height + (os.any fun o => o.name == wanted).toNat)
  | [], hs => by
      cases hs.nil
      exact .refl
  | ⟨name, value, _⟩ :: rest, hs => by
      rw [TagOption.lower] at hs
      rw [List.any_cons]
      split at hs
      · rename_i hn
        rw [hn]
        exact Expr.rises n value hs
      · rename_i hn
        rw [Bool.eq_false_iff.mpr hn, Bool.false_or]
        exact TagOption.rises n wanted rest hs

/-- Code of a condition leaves one operand more. -/
theorem Condition.rises {a b height : Nat} (n : Nat) : (c : Condition) →
    Segment t a (c.lower o n) b → Rises t a b height (height + 1)
  | .value e, hs => Expr.rises n e hs
  | .not c, hs => by
      obtain ⟨mid, h₁, h₂⟩ := hs.split
      obtain ⟨hl, rfl⟩ := h₂.single
      exact (Condition.rises n c h₁).trans (.line hl rfl (Nat.le_add_left _ _) rfl)
  | .and left right, hs => by
      obtain ⟨mid, h₁, hs⟩ := hs.split
      obtain ⟨mid', h₂, h₃⟩ := hs.split
      obtain ⟨hl, rfl⟩ := h₃.single
      exact ((Condition.rises n left h₁).trans (Condition.rises _ right h₂)).trans
        (.line hl rfl (Nat.le_add_left _ _) rfl)
  | .or left right, hs => by
      obtain ⟨mid, h₁, hs⟩ := hs.split
      obtain ⟨mid', h₂, h₃⟩ := hs.split
      obtain ⟨hl, rfl⟩ := h₃.single
      exact ((Condition.rises n left h₁).trans (Condition.rises _ right h₂)).trans
        (.line hl rfl (Nat.le_add_left _ _) rfl)

/-- Code of an element leaves no operands. -/
theorem Element.rises {a b : Nat} (n : Nat) : (e : Element) →
    Segment t a (e.lower o n a) b → Rises t a b 0 0
  | .text _, hs => by
      obtain ⟨hl, rfl⟩ := hs.single
      exact .line hl rfl (Nat.zero_le _) rfl
  | .tag value options _, hs => by
      obtain ⟨mid, h₁, hs⟩ := hs.split
      obtain ⟨mid₂, h₂, hs⟩ := hs.split
      obtain ⟨mid₃, h₃, hs⟩ := hs.split
      obtain ⟨mid₄, h₄, hs⟩ := hs.split
      obtain ⟨hl, rfl⟩ := hs.single
      have hn := (TagOption.present options).length_names
      refine (Expr.rises n value h₁).trans ((TagOption.rises _ _ options h₂).trans
        ((TagOption.rises _ _ options h₃).trans ((TagOption.rises _ _ options h₄).trans
          (.line hl rfl ?_ ?_))))
      · rw [Instr.pops, hn]
        simp only [TagOption.present]
        omega
      · rw [Instr.after, Instr.pops, hn]
        simp only [TagOption.present, Instr.pushes]
        omega
  | .choice branches none, hs => by
      intro h
      obtain ⟨mid, h₁, h₂⟩ := hs.split
      cases h₂.nil
      have hb := h₁.2
      rw [Branch.length_join] at hb
      subst hb
      obtain ⟨hz, hall⟩ := Branch.rises n branches h₁ (Nat.le_refl _) hs.stop_le h
      exact ⟨hz, hall hz⟩
  | .choice branches (some body), hs => by
      intro h
      obtain ⟨mid, h₁, h₂⟩ := hs.split
      have hm := h₁.2
      have hb := h₂.2
      rw [Branch.length_join] at hm
      subst hm hb
      obtain ⟨hz, hall⟩ := Branch.rises n branches h₁ (Nat.le_add_right _ _) hs.stop_le h
      have hbody := Element.risesAll _ body h₂
      exact Rises.trans (fun _ => ⟨hz, hall (hbody hz).1⟩) hbody h

theorem Element.risesAll {a b : Nat} (n : Nat) : (es : List Element) →
    Segment t a (Element.lowerAll o n a es) b → Rises t a b 0 0
  | [], hs => by
      cases hs.nil
      exact .refl
  | e :: rest, hs => by
      obtain ⟨mid, h₁, h₂⟩ := hs.split
      rw [← h₁.2] at h₂
      exact (Element.rises n e h₁).trans (Element.risesAll _ rest h₂)

/-- Code of branches leaves no operands. It is steady if there are none at the end of the conditional. -/
theorem Branch.rises {a b exit : Nat} (n : Nat) : (bs : List Branch) →
    Segment t a (Branch.join exit (Branch.lowerAll o n a bs)) b → b ≤ exit → exit ≤ t.lines.length →
    t.height a = 0 → t.height b = 0 ∧ (t.height exit = 0 → ∀ i, a ≤ i → i < b → t.Steady i)
  | [], hs, _, _, h => by
      cases hs.nil
      exact ⟨h, fun _ => (Rises.refl h).2⟩
  | ⟨condition, body, _⟩ :: rest, hs, hle, hlen, h => by
      obtain ⟨next, hs, h₄⟩ := hs.split
      obtain ⟨last, hs, h₃⟩ := hs.split
      obtain ⟨mid, h₁, hs⟩ := hs.split
      obtain ⟨hl, h₂⟩ := hs.cons
      obtain ⟨hl', rfl⟩ := h₃.single
      have hlast : last < exit := Nat.lt_of_lt_of_le h₄.le hle
      rw [← h₁.2] at h₂ hl h₄
      rw [← h₂.2] at hl h₄
      have hcond : Rises t a mid 0 1 := Condition.rises n condition h₁
      have hbody := Element.risesAll _ body h₂
      have hmid := (t.height_succ hl).trans (congrArg _ (hcond h).1)
      have hnext := (t.height_succ hl').trans (congrArg _ (hbody hmid).1)
      obtain ⟨hz, hall⟩ := Branch.rises _ rest h₄ hle hlen hnext
      refine ⟨hz, fun he => ?_⟩
      have hend : Rises t (last + 1) b 0 0 := fun _ => ⟨hz, hall he⟩
      have hjump := Rises.branch hl' rfl rfl rfl hlast hlen he
      have htest := Rises.branch hl rfl rfl rfl (Nat.lt_succ_of_le (Nat.le_of_lt h₂.le))
        (Nat.le_trans hlast hlen) hnext
      exact (hcond.trans (htest.trans (hbody.trans (hjump.trans hend))) h).2

end

/-- Code of defaults leaves no operands. -/
theorem lowerDefaults_rises {a b : Nat} (n : Nat) : (ds : List (String × Expr)) →
    Segment t a (lowerDefaults o n a ds) b → Rises t a b 0 0
  | [], hs => by
      cases hs.nil
      exact .refl
  | (name, value) :: rest, hs => by
      obtain ⟨next, hs, h₃⟩ := hs.split
      rw [← hs.2] at h₃
      have hnext : a + (value.lower o n).length + 2 = next := by
        rw [hs.2, lowerDefault, List.length_cons, List.length_append]
        rfl
      have hlen := hs.stop_le
      obtain ⟨hl, hs⟩ := hs.cons
      obtain ⟨mid, h₁, h₂⟩ := hs.split
      obtain ⟨hl', rfl⟩ := h₂.single
      rw [hnext] at hl
      have hvalue : Rises t (a + 1) mid 0 1 := value.rises n h₁
      intro h
      have hset := (t.height_succ hl).trans (congrArg _ h)
      have hstored := (t.height_succ hl').trans (congrArg _ (hvalue hset).1)
      have htest := Rises.branch hl rfl rfl rfl (Nat.lt_succ_of_lt h₁.le) hlen hstored
      have hstore : Rises t mid (mid + 1) 1 0 := .line hl' rfl (Nat.le_refl _) rfl
      exact (htest.trans (hvalue.trans (hstore.trans (lowerDefaults_rises _ rest h₃)))) h

/-- All of the code of a template is steady, and it leaves no operands. -/
theorem Template.rises (t : Template) : Rises t 0 t.lines.length 0 0 := by
  obtain ⟨mid, h₁, h₂⟩ := (Segment.whole t).split
  rw [← Nat.zero_add (lowerDefaults _ _ _ _).length, ← h₁.2] at h₂
  exact (lowerDefaults_rises _ _ h₁).trans (Element.risesAll _ _ h₂)

end Stencil
