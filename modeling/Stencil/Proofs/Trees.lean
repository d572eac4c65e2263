import Stencil.Proofs.Instructions
/-! The code of each tree does what its evaluation does, in front of whatever follows. -/

namespace Stencil

open Rendering

variable {s : Scene} {t : Template} (r : Reading) {o : Origin} {P : Span → Prop}

mutual

/-- Code of an expression goes on with its value on top. That of a template to run is an instance. -/
theorem Expr.exec (ht : t.code = s.env.program.toCode) (hP : o.Allows P) {operands : List Value}
    {a b : Nat} (n : Nat) (k : Value → Attempt Unit) : (e : Expr) → e.Proper P →
    Segment t a (e.lower o n) b →
    (∀ v, (e.IsTemplate → ∃ i, v = .template i) → Exec s (v :: operands) b (k v)) →
    Exec s operands a (e.eval r s.settings s.env o n >>= k)
  | .attribute name _, _, hs, hk => by
      obtain ⟨hl, rfl⟩ := hs.single
      exact .pushAttribute ht hl fun v => hk v nofun
  | .literal text _, _, hs, hk => by
      obtain ⟨hl, rfl⟩ := hs.single
      exact .pushText ht hl (hk _ nofun)
  | .truth b _, _, hs, hk => by
      obtain ⟨hl, rfl⟩ := hs.single
      exact .pushTruth ht hl (hk _ nofun)
  | .list items _, h, hs, hk => by
      obtain ⟨mid, h₁, h₂⟩ := hs.split
      obtain ⟨hl, rfl⟩ := h₂.single
      rw [Expr.eval, bind_assoc]
      refine Expr.execAll ht hP n _ items h.1 h₁ fun vs hn _ => ?_
      exact .list ht hn.symm hl (hk _ nofun)
  | .property target name _, h, hs, hk => by
      obtain ⟨mid, h₁, h₂⟩ := hs.split
      obtain ⟨hl, rfl⟩ := h₂.single
      rw [Expr.eval, bind_assoc]
      refine Expr.exec ht hP n _ target h.1 h₁ fun v _ => ?_
      exact .property ht hl fun w => hk w nofun
  | .propertyAt target key _, h, hs, hk => by
      obtain ⟨mid, h₁, hs⟩ := hs.split
      obtain ⟨mid', h₂, h₃⟩ := hs.split
      obtain ⟨hl, rfl⟩ := h₃.single
      rw [Expr.eval, bind_assoc]
      refine Expr.exec ht hP n _ target h.1 h₁ fun v _ => ?_
      rw [bind_assoc]
      refine Expr.exec ht hP _ _ key h.2.1 h₂ fun w _ => ?_
      exact .propertyAt ht hl fun w => hk w nofun
  | .call callee arguments _, h, hs, hk => by
      obtain ⟨mid, h₁, h₂⟩ := hs.split
      obtain ⟨hl, rfl⟩ := h₂.single
      rw [Expr.eval, bind_assoc]
      refine Arguments.exec ht hP n _ arguments h.1 h₁ fun passed hp => ?_
      rw [bind_assoc]
      exact .create ht hp hl fun i => hk _ fun _ => ⟨i, rfl⟩
  | .callComputed name arguments _, h, hs, hk => by
      obtain ⟨mid, h₁, hs⟩ := hs.split
      obtain ⟨hl, hs⟩ := hs.cons
      obtain ⟨mid', h₂, h₃⟩ := hs.split
      obtain ⟨hl', rfl⟩ := h₃.single
      rw [Expr.eval, bind_assoc]
      refine Expr.exec ht hP n _ name h.1 h₁ fun v _ => ?_
      rw [bind_assoc]
      refine .render ht hl fun text => ?_
      rw [bind_assoc]
      refine Arguments.exec ht hP _ _ arguments h.2.1 h₂ fun passed hp => ?_
      rw [bind_assoc]
      exact .createComputed ht hp hl' fun i => hk _ fun _ => ⟨i, rfl⟩
  | .rendered value _, h, hs, hk => by
      obtain ⟨mid, h₁, h₂⟩ := hs.split
      obtain ⟨hl, rfl⟩ := h₂.single
      rw [Expr.eval, bind_assoc]
      refine Expr.exec ht hP n _ value h.1 h₁ fun v _ => ?_
      rw [bind_assoc]
      exact .render ht hl fun text => hk _ nofun
  | .builtin function argument _, h, hs, hk => by
      obtain ⟨mid, h₁, h₂⟩ := hs.split
      obtain ⟨hl, rfl⟩ := h₂.single
      rw [Expr.eval, bind_assoc]
      refine Expr.exec ht hP n _ argument h.1 h₁ fun v _ => ?_
      exact .builtin ht hl fun w => hk w nofun
  | .anonymous parameter body _, h, hs, hk => by
      obtain ⟨hl, rfl⟩ := hs.single
      have hp := r.program_code (.ofAnonymous o n parameter body) ⟨nofun, P, hP, h.1⟩
      exact .createAnonymous ht hp hl (hk _ fun _ => ⟨_, rfl⟩)
  | .map target templates _, h, hs, hk => by
      obtain ⟨mid, h₁, hs⟩ := hs.split
      obtain ⟨mid', h₂, h₃⟩ := hs.split
      obtain ⟨hl, rfl⟩ := h₃.single
      rw [Expr.eval, bind_assoc]
      refine Expr.exec ht hP n _ target h.1 h₁ fun v _ => ?_
      rw [bind_assoc]
      refine Expr.execAll ht hP _ _ templates h.2.1 h₂ fun vs hn hvs => ?_
      exact .map ht hn.symm (hvs h.2.2.1) hl fun w => hk w nofun

theorem Expr.execAll (ht : t.code = s.env.program.toCode) (hP : o.Allows P) {operands : List Value}
    {a b : Nat} (n : Nat) (k : List Value → Attempt Unit) :
    (es : List Expr) → Expr.ProperAll P es → Segment t a (Expr.lowerAll o n es) b →
    (∀ vs, vs.length = es.length → ((∀ e ∈ es, e.IsTemplate) → ∀ v ∈ vs, ∃ i, v = .template i) →
      Exec s (vs.reverse ++ operands) b (k vs)) →
    Exec s operands a (Expr.evalAll r s.settings s.env o n es >>= k)
  | [], _, hs, hk => by
      cases hs.nil
      exact hk [] rfl nofun
  | e :: rest, h, hs, hk => by
      obtain ⟨mid, h₁, h₂⟩ := hs.split
      rw [Expr.evalAll, bind_assoc]
      refine Expr.exec ht hP n _ e h.1 h₁ fun v hv => ?_
      rw [bind_assoc]
      refine Expr.execAll ht hP _ _ rest h.2 h₂ fun vs hn hvs => ?_
      have hk := hk (v :: vs) (congrArg (· + 1) hn) fun he => List.forall_mem_cons.mpr
        ⟨hv (he e List.mem_cons_self), hvs fun e hm => he e (List.mem_cons_of_mem _ hm)⟩
      rw [List.reverse_cons, List.append_assoc] at hk
      exact hk

theorem Arguments.exec (ht : t.code = s.env.program.toCode) (hP : o.Allows P) {operands : List Value}
    {a b : Nat} (n : Nat) (k : Passed → Attempt Unit) :
    (as : Arguments) → as.Proper P → Segment t a (as.lower o n) b →
    (∀ passed, as.passing.Fits passed → Exec s (passed.laid ++ operands) b (k passed)) →
    Exec s operands a (as.eval r s.settings s.env o n >>= k)
  | .positional values, h, hs, hk => by
      rw [Arguments.eval, bind_assoc]
      exact Expr.execAll ht hP n _ values h hs fun vs hn _ => hk (.positional vs) hn.symm
  | .named values, h, hs, hk => by
      rw [Arguments.eval, bind_assoc]
      exact NamedArgument.execAll ht hP n _ values h hs fun es hn => hk (.named es) hn.symm

theorem NamedArgument.execAll (ht : t.code = s.env.program.toCode) (hP : o.Allows P) {operands : List Value}
    {a b : Nat} (n : Nat) (k : List (String × Value) → Attempt Unit) :
    (as : List NamedArgument) → NamedArgument.ProperAll P as →
    Segment t a (NamedArgument.lowerAll o n as) b →
    (∀ es, es.length = as.length → Exec s ((Passed.named es).laid ++ operands) b (k es)) →
    Exec s operands a (NamedArgument.evalAll r s.settings s.env o n as >>= k)
  | [], _, hs, hk => by
      cases hs.nil
      exact hk [] rfl
  | ⟨name, value, _⟩ :: rest, h, hs, hk => by
      obtain ⟨hl, hs⟩ := hs.cons
      obtain ⟨mid, h₁, h₂⟩ := hs.split
      rw [NamedArgument.evalAll, bind_assoc]
      refine .pushText ht hl (Expr.exec ht hP n _ value h.1 h₁ fun v _ => ?_)
      rw [bind_assoc]
      refine NamedArgument.execAll ht hP _ _ rest h.2.2.1 h₂ fun es hn => ?_
      have hk := hk ((name, v) :: es) (congrArg (· + 1) hn)
      rw [Passed.laid, List.flatMap_cons, List.reverse_append, List.append_assoc] at hk
      exact hk

/-- Code of an option goes on with its value on top, if there is such an option. -/
theorem TagOption.exec (ht : t.code = s.env.program.toCode) (hP : o.Allows P) {operands : List Value}
    {a b : Nat} (n : Nat) (wanted : String) (k : Option Value → Attempt Unit) :
    (os : List TagOption) → TagOption.ProperAll P os → Segment t a (TagOption.lower o n wanted os) b →
    (∀ w, w.isSome = (os.any fun o => o.name == wanted) → Exec s (w.toList ++ operands) b (k w)) →
    Exec s operands a (TagOption.eval r s.settings s.env o n wanted os >>= k)
  | [], _, hs, hk => by
      cases hs.nil
      exact hk none rfl
  | ⟨name, value, _⟩ :: rest, h, hs, hk => by
      rw [TagOption.lower] at hs
      rw [TagOption.eval]
      rw [List.any_cons] at hk
      split at hs
      · rename_i hn
        rw [if_pos hn, bind_assoc]
        refine Expr.exec ht hP n _ value h.1 hs fun v _ => ?_
        exact hk (some v) (by rw [hn]; rfl)
      · rename_i hn
        rw [if_neg hn]
        refine TagOption.exec ht hP n wanted k rest h.2.2.1 hs fun w hw => hk w ?_
        rw [hw, Bool.eq_false_iff.mpr hn, Bool.false_or]

/-- Code of a condition goes on with a value on top that counts as true if the condition holds. -/
theorem Condition.exec (ht : t.code = s.env.program.toCode) (hP : o.Allows P) {operands : List Value}
    {a b : Nat} (n : Nat) (k : Bool → Attempt Unit) :
    (c : Condition) → c.Proper P → Segment t a (c.lower o n) b →
    (∀ v, Exec s (v :: operands) b (k v.isTruthy)) →
    Exec s operands a (c.eval r s.settings s.env o n >>= k)
  | .value e, h, hs, hk => by
      rw [Condition.eval, bind_assoc]
      refine Expr.exec ht hP n _ e h hs fun v _ => ?_
      rw [pure_bind]
      exact hk v
  | .not c, h, hs, hk => by
      obtain ⟨mid, h₁, h₂⟩ := hs.split
      obtain ⟨hl, rfl⟩ := h₂.single
      rw [Condition.eval, bind_assoc]
      refine Condition.exec ht hP n _ c h h₁ fun v => ?_
      rw [pure_bind]
      exact .not ht hl (hk _)
  | .and left right, h, hs, hk => by
      obtain ⟨mid, h₁, hs⟩ := hs.split
      obtain ⟨mid', h₂, h₃⟩ := hs.split
      obtain ⟨hl, rfl⟩ := h₃.single
      rw [Condition.eval, bind_assoc]
      refine Condition.exec ht hP n _ left h.1 h₁ fun v => ?_
      rw [bind_assoc]
      refine Condition.exec ht hP _ _ right h.2 h₂ fun w => ?_
      rw [pure_bind]
      exact .and ht hl (hk _)
  | .or left right, h, hs, hk => by
      obtain ⟨mid, h₁, hs⟩ := hs.split
      obtain ⟨mid', h₂, h₃⟩ := hs.split
      obtain ⟨hl, rfl⟩ := h₃.single
      rw [Condition.eval, bind_assoc]
      refine Condition.exec ht hP n _ left h.1 h₁ fun v => ?_
      rw [bind_assoc]
      refine Condition.exec ht hP _ _ right h.2 h₂ fun w => ?_
      rw [pure_bind]
      exact .or ht hl (hk _)

/-- Code of an element goes on behind it. -/
theorem Element.exec (ht : t.code = s.env.program.toCode) (hP : o.Allows P) {operands : List Value}
    {a b : Nat} (n : Nat) (k : Unit → Attempt Unit) :
    (e : Element) → e.Proper P → Segment t a (e.lower o n a) b → Exec s operands b (k ()) →
    Exec s operands a (e.eval r s.settings s.env o n >>= k)
  | .text _, _, hs, hk => by
      obtain ⟨hl, rfl⟩ := hs.single
      exact .text ht hl hk
  | .tag value options _, h, hs, hk => by
      obtain ⟨mid, h₁, hs⟩ := hs.split
      obtain ⟨mid₂, h₂, hs⟩ := hs.split
      obtain ⟨mid₃, h₃, hs⟩ := hs.split
      obtain ⟨mid₄, h₄, hs⟩ := hs.split
      obtain ⟨hl, rfl⟩ := hs.single
      rw [Element.eval, bind_assoc]
      refine Expr.exec ht hP n _ value h.1 h₁ fun v _ => ?_
      rw [bind_assoc]
      refine TagOption.exec ht hP _ _ _ options h.2.1 h₂ fun separator hsep => ?_
      rw [bind_assoc]
      refine TagOption.exec ht hP _ _ _ options h.2.1 h₃ fun format hformat => ?_
      rw [bind_assoc]
      refine TagOption.exec ht hP _ _ _ options h.2.1 h₄ fun null hnull => ?_
      rw [bind_assoc]
      exact .write ht (by rw [hsep, hformat, hnull]; rfl) hl hk
  | .choice branches none, h, hs, hk => by
      obtain ⟨mid, h₁, h₂⟩ := hs.split
      cases h₂.nil
      have hb := h₁.2
      rw [Branch.length_join] at hb
      subst hb
      rw [Element.eval]
      refine Branch.exec ht hP n k _ branches h.1 h₁ (Nat.le_refl _) ?_ hk
      rw [pure_bind]
      exact hk
  | .choice branches (some body), h, hs, hk => by
      obtain ⟨mid, h₁, h₂⟩ := hs.split
      have hm := h₁.2
      have hb := h₂.2
      rw [Branch.length_join] at hm
      subst hm hb
      rw [Element.eval]
      exact Branch.exec ht hP n k _ branches h.1 h₁ (Nat.le_add_right _ _)
        (Element.execAll ht hP _ k body h.2 h₂ hk) hk

theorem Element.execAll (ht : t.code = s.env.program.toCode) (hP : o.Allows P) {operands : List Value}
    {a b : Nat} (n : Nat) (k : Unit → Attempt Unit) :
    (es : List Element) → Element.ProperAll P es → Segment t a (Element.lowerAll o n a es) b →
    Exec s operands b (k ()) →
    Exec s operands a (Element.evalAll r s.settings s.env o n es >>= k)
  | [], _, hs, hk => by
      cases hs.nil
      exact hk
  | e :: rest, h, hs, hk => by
      obtain ⟨mid, h₁, h₂⟩ := hs.split
      rw [← h₁.2] at h₂
      rw [Element.evalAll, bind_assoc]
      exact Element.exec ht hP n _ e h.1 h₁ (Element.execAll ht hP _ _ rest h.2 h₂ hk)

/-- Code of branches goes on behind the conditional after one of them, and behind them after none. -/
theorem Branch.exec (ht : t.code = s.env.program.toCode) (hP : o.Allows P) {operands : List Value}
    {a b exit : Nat} (n : Nat) (k : Unit → Attempt Unit) (otherwise : Attempt Unit) :
    (bs : List Branch) → Branch.ProperAll P bs →
    Segment t a (Branch.join exit (Branch.lowerAll o n a bs)) b → b ≤ exit →
    Exec s operands b (otherwise >>= k) → Exec s operands exit (k ()) →
    Exec s operands a (Branch.evalFirst r s.settings s.env o n otherwise bs >>= k)
  | [], _, hs, _, ho, _ => by
      cases hs.nil
      exact ho
  | ⟨condition, body, _⟩ :: rest, h, hs, hle, ho, hk => by
      obtain ⟨next, hs, h₄⟩ := hs.split
      obtain ⟨last, hs, h₃⟩ := hs.split
      obtain ⟨mid, h₁, hs⟩ := hs.split
      obtain ⟨hl, h₂⟩ := hs.cons
      obtain ⟨hl', rfl⟩ := h₃.single
      have hlast : last < exit := Nat.lt_of_lt_of_le h₄.le hle
      rw [← h₁.2] at h₂ hl h₄
      rw [← h₂.2] at hl h₄
      rw [Branch.evalFirst, bind_assoc]
      refine Condition.exec ht hP n _ condition h.1 h₁ fun v => ?_
      refine .jumpUnless ht hl (Nat.lt_succ_of_le (Nat.le_of_lt h₂.le)) (fun hv => ?_) fun hv => ?_
      · rw [if_pos hv]
        exact Element.execAll ht hP _ _ body h.2.1 h₂ (.jump ht hl' hlast hk)
      · rw [if_neg (Bool.eq_false_iff.mp hv)]
        exact Branch.exec ht hP _ _ otherwise rest h.2.2.2 h₄ hle ho hk

end

/-- Code of defaults goes on behind them. -/
theorem execDefaults (ht : t.code = s.env.program.toCode) (ho : o.inDefault = true) {a b : Nat}
    {k : Unit → Attempt Unit} (n : Nat) : (ds : List (String × Expr)) → (∀ d ∈ ds, ∃ P, d.2.Proper P) →
    Segment t a (lowerDefaults o n a ds) b → Exec s [] b (k ()) →
    Exec s [] a (evalDefaults r s.settings s.env o n ds >>= k)
  | [], _, hs, hk => by
      cases hs.nil
      exact hk
  | (name, value) :: rest, h, hs, hk => by
      obtain ⟨P, hv⟩ := h _ List.mem_cons_self
      have hP : o.Allows P := fun s _ p hp => by simp [Origin.place, ho] at hp
      have hrest (d) (hd : d ∈ rest) := h d (List.mem_cons_of_mem _ hd)
      obtain ⟨next, hs, h₃⟩ := hs.split
      rw [← hs.2] at h₃
      have hnext : a + (value.lower o n).length + 2 = next := by
        rw [hs.2, lowerDefault, List.length_cons, List.length_append]
        rfl
      obtain ⟨hl, hs⟩ := hs.cons
      obtain ⟨mid, h₁, h₂⟩ := hs.split
      obtain ⟨hl', rfl⟩ := h₂.single
      have hk := execDefaults ht ho _ rest hrest h₃ hk
      rw [hnext] at hl
      rw [evalDefaults, bind_assoc, evalDefault]
      refine .jumpIfSet ht hl (Nat.lt_succ_of_lt h₁.le) (fun hp => ?_) fun hp => ?_
      · rw [hp, if_pos rfl, pure_bind]
        exact hk
      · rw [hp, if_neg Bool.false_ne_true, bind_assoc]
        exact Expr.exec r ht hP _ _ value hv h₁ fun v _ => .storeDefault ht hl' hk

/-- Code of a template does what the template does. -/
theorem Template.exec (ht : t.code = s.env.program.toCode) (hp : t.Proper) :
    Exec s [] 0 (t.eval r s.settings s.env) := by
  obtain ⟨mid, h₁, h₂⟩ := (Segment.whole t).split
  obtain ⟨P, hP, hb⟩ := hp.body
  rw [← Nat.zero_add (lowerDefaults _ _ _ _).length, ← h₁.2] at h₂
  refine execDefaults r ht rfl _ _ hp.defaults h₁ ?_
  rw [← bind_pure (Element.evalAll _ _ _ _ _ _)]
  exact Element.execAll r ht hP _ _ _ hb h₂ (.finish ht)

/-- Code does what the tree does. The steps that it is given are enough. -/
theorem runCode_coupled (s : Scene) (r : Reading) : Coupled codeAccord (At s [] 0)
    (runCode s.settings s.env) (runTree r s.settings s.env) fun _ _ => Ended s :=
  Coupled.bind (Template.exec r (r.template_code _ _) (r.template_proper _ _) _ (by omega)) fun _ _ =>
    .pure fun _ _ => id

end Stencil
