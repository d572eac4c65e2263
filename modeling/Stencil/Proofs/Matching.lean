import Stencil.Proofs.Evaluator
import Stencil.Proofs.Fitting
import Stencil.Proofs.Link
/-! Evaluating a tree in two renders side by side. -/

namespace Stencil

open Rendering

variable {A : Accord} (B : Bond A) (r : Reading) {o : Origin} {d : Directory} {P : Span → Prop}

namespace Bond

/-- Whatever a template calls and reports, both renders stay side by side. -/
structure Free : Prop where
  visited : ∀ place, B.visited place
  allowed : B.Open
  inner : ∀ t, B.inner (r.program t)

/-- Both renders stay side by side in templates whose calls fit a directory. -/
structure Serves (d : Directory) : Prop where
  visited : ∀ place, B.visited place
  reaches : ∀ callee formals, d.find? callee = some formals → B.Reaches callee formals
  inner : ∀ t : Template, t.anonymous = true → t.Fits d → B.inner (r.program t)

/-- Both renders stay side by side in what fits, if not in everything. -/
def Runs (o : Origin) (d : Directory) (P : Span → Prop) : Prop :=
  B.Free r ∨ B.Serves r d ∧ o.Allows P

variable {B r}

theorem Runs.visited (h : B.Runs r o d P) (place : Option Span) : B.visited place := by
  rcases h with hfree | ⟨hserves, -⟩
  · exact hfree.visited place
  · exact hserves.visited place

end Bond

variable {B r}

/-- A call gives an instance of a template with the parameters that the directory knows. -/
theorem Expr.call_matched (hB : B.Runs r o d P) {n : Nat} {callee : Callee} {arguments : Arguments}
    {s : Span}
    (ha : B.Attempted (fun p p' => Link.PassedAlike B.bare p p' ∧
      ∀ formals, arguments.Suit formals → Link.Suits formals p)
      (arguments.eval r B.settings B.env o n) (arguments.eval r B.settings B.env' o n))
    (h : B.Free r ∨ ∃ formals, d.find? callee = some formals ∧ arguments.Suit formals) :
    B.Attempted (fun v v' => v.Alike B.bare v' ∧ (B.Free r ∨ ∀ i, v'.template? = some i →
      d.find? callee = some i.program.formals))
      ((Expr.call callee arguments s).eval r B.settings B.env o n)
      ((Expr.call callee arguments s).eval r B.settings B.env' o n) := by
  rw [Expr.eval, Expr.eval]
  refine .bind ha fun p p' ⟨hp, hsuits⟩ => ?_
  have hcall : B.Open ∨ ∃ formals, B.Reaches callee formals ∧ Link.Suits formals p := by
    rcases hB with hfree | ⟨hserves, -⟩
    · exact .inl hfree.allowed
    · exact h.imp Bond.Free.allowed fun ⟨formals, hd, hs⟩ =>
        ⟨formals, hserves.reaches callee formals hd, hsuits formals hs⟩
  have hvisited := hB.visited (o.place s)
  refine .bind ((B.atPlace hvisited).instantiate callee hp hcall) fun i i' ⟨hi, native, hfound⟩ => ?_
  refine .pure ⟨.template hi, ?_⟩
  rcases hB with hfree | ⟨hserves, -⟩
  · exact .inl hfree
  · refine h.imp_right fun ⟨formals, hd, _⟩ j hj => ?_
    cases hj
    obtain ⟨_, _, hok, hf⟩ := hserves.reaches callee formals hd _ hfound
    cases hok
    rw [hd, hf]

/-- A template without a name gives an instance that can be mapped. -/
theorem Expr.anonymous_matched (hB : B.Runs r o d P) {n : Nat} {parameter : Option String}
    {body : List Element} {s : Span}
    (h : B.Free r ∨ Element.ProperAll P body ∧ Element.FitAll d P body) :
    B.Attempted (fun v v' => v.Alike B.bare v' ∧ (B.Free r ∨ ∀ i, v'.template? = some i →
      Link.Receives i.program))
      ((Expr.anonymous parameter body s).eval r B.settings B.env o n)
      ((Expr.anonymous parameter body s).eval r B.settings B.env' o n) := by
  rw [Expr.eval, Expr.eval]
  rcases hB with hfree | ⟨hserves, hP⟩
  · exact .pure ⟨.template (B.enclosed_alike (hfree.inner _)), .inl hfree⟩
  rcases h with hfree | ⟨hp, hb⟩
  · exact .pure ⟨.template (B.enclosed_alike (hfree.inner _)), .inl hfree⟩
  have hfits := Template.Fits.ofAnonymous hP n parameter hp hb
  refine .pure ⟨.template (B.enclosed_alike (hserves.inner _ rfl hfits)), .inr fun i hi => ?_⟩
  cases hi
  have hf := congrArg Code.formals (r.program_code _ hfits.proper)
  exact (congrArg (fun f => f.receiver?.isSome) hf :)

mutual

theorem Expr.eval_matched (hB : B.Runs r o d P) (n : Nat) : (e : Expr) → (B.Free r ∨ e.Fits d P) →
    B.Attempted (Value.Alike B.bare) (e.eval r B.settings B.env o n)
      (e.eval r B.settings B.env' o n)
  | .attribute name _, _ => by
      rw [Expr.eval, Expr.eval]
      exact .lift (B.readAttribute name)
  | .literal text _, _ => by
      rw [Expr.eval, Expr.eval]
      exact .pure (.text text)
  | .truth b _, _ => by
      rw [Expr.eval, Expr.eval]
      exact .pure (.bool b)
  | .list items _, h => by
      rw [Expr.eval, Expr.eval]
      exact .bind (Expr.evalAll_matched hB n items h) fun _ _ hvs => .pure (.list hvs.1)
  | .property target name s, h => by
      rw [Expr.eval, Expr.eval]
      exact .bind (Expr.eval_matched hB n target h) fun _ _ hv =>
        .lift ((B.atPlace (hB.visited (o.place s))).readProperty hv name)
  | .propertyAt target key s, h => by
      rw [Expr.eval, Expr.eval]
      exact .bind (Expr.eval_matched hB n target (h.imp_right And.left)) fun _ _ hv =>
        .bind (Expr.eval_matched hB _ key (h.imp_right And.right)) fun _ _ hkey =>
          .lift ((B.atPlace (hB.visited (o.place s))).readPropertyAt hv hkey)
  | .call callee arguments s, h =>
      (Expr.call_matched hB (Arguments.eval_matched hB n arguments (h.imp_right And.left))
        (h.imp_right And.right)).mono fun _ _ hv => hv.1
  | .callComputed name arguments s, h => by
      have hfree : B.Free r := h.resolve_right id
      rw [Expr.eval, Expr.eval]
      refine .bind (Expr.eval_matched hB n name (.inl hfree)) fun _ _ hv =>
        .bind (.lift ((B.atPlace (hB.visited (o.place name.span))).renderEarly hv)) fun text _ ht => ?_
      subst ht
      exact .bind (Arguments.eval_matched hB _ arguments (.inl hfree)) fun _ _ hp =>
        .bind ((B.atPlace (hB.visited (o.place s))).instantiateComputed hfree.allowed text hp.1)
          fun _ _ hi => .pure (.template hi)
  | .rendered value s, h => by
      rw [Expr.eval, Expr.eval]
      refine .bind (Expr.eval_matched hB n value h) fun _ _ hv =>
        .bind (.lift ((B.atPlace (hB.visited (o.place s))).renderEarly hv)) fun text _ ht => ?_
      subst ht
      exact .pure (.text text)
  | .builtin function argument s, h => by
      rw [Expr.eval, Expr.eval]
      exact .bind (Expr.eval_matched hB n argument h) fun _ _ hv =>
        .lift ((B.atPlace (hB.visited (o.place s))).applyBuiltin function hv)
  | .anonymous parameter body _, h => (Expr.anonymous_matched hB h).mono fun _ _ hv => hv.1
  | .map target templates s, h => by
      rw [Expr.eval, Expr.eval]
      refine .bind (Expr.eval_matched hB n target (h.imp_right And.left)) fun _ _ hv =>
        .bind (Expr.evalTemplates_matched hB _ templates (h.imp_right And.right)) fun _ _ ⟨hts, hr⟩ => ?_
      exact .lift ((B.atPlace (hB.visited (o.place s))).mapValue hts.templates
        (hr.imp_left fun h => h.allowed .mapTemplateWithoutParameters nofun) hv)

theorem Expr.evalAll_matched (hB : B.Runs r o d P) (n : Nat) : (es : List Expr) →
    (B.Free r ∨ Expr.FitAll d P es) →
    B.Attempted (fun vs vs' => Items.Alike B.bare vs vs' ∧ vs.length = es.length)
      (Expr.evalAll r B.settings B.env o n es) (Expr.evalAll r B.settings B.env' o n es)
  | [], _ => by
      rw [Expr.evalAll, Expr.evalAll]
      exact .pure ⟨.nil, rfl⟩
  | e :: rest, h => by
      rw [Expr.evalAll, Expr.evalAll]
      exact .bind (Expr.eval_matched hB n e (h.imp_right And.left)) fun _ _ hv =>
        .bind (Expr.evalAll_matched hB _ rest (h.imp_right And.right)) fun _ _ hvs =>
          .pure ⟨.cons hv hvs.1, congrArg (· + 1) hvs.2⟩

/-- The values of templates to map can be mapped. -/
theorem Expr.evalTemplates_matched (hB : B.Runs r o d P) (n : Nat) : (es : List Expr) →
    (B.Free r ∨ Expr.FitAll d P es ∧ ∀ e ∈ es, e.IsTemplate ∧ e.Receives d) →
    B.Attempted (fun vs vs' => Items.Alike B.bare vs vs' ∧
        (B.Free r ∨ ∀ i, some i ∈ vs'.map Value.template? → Link.Receives i.program))
      (Expr.evalAll r B.settings B.env o n es) (Expr.evalAll r B.settings B.env' o n es)
  | [], _ => by
      rw [Expr.evalAll, Expr.evalAll]
      exact .pure ⟨.nil, .inr nofun⟩
  | e :: rest, h => by
      have he : B.Attempted (fun v v' => v.Alike B.bare v' ∧
          (B.Free r ∨ ∀ i, v'.template? = some i → Link.Receives i.program))
          (e.eval r B.settings B.env o n) (e.eval r B.settings B.env' o n) := by
        cases e with
        | call callee arguments s =>
          have hargs := Arguments.eval_matched hB n arguments (h.imp_right fun h => h.1.1.1)
          refine (Expr.call_matched hB hargs (h.imp_right fun h => h.1.1.2)).mono
            fun v v' ⟨hv, hi⟩ => ⟨hv, ?_⟩
          rcases h with hfree | h
          · exact .inl hfree
          · refine hi.imp_right fun hi i hv => ?_
            exact (h.2 _ List.mem_cons_self).2 _ (hi i hv)
        | anonymous parameter body s => exact Expr.anonymous_matched hB (h.imp_right fun h => h.1.1)
        | callComputed name arguments s =>
          have hfree : B.Free r := h.resolve_right fun h => h.1.1
          exact (Expr.eval_matched hB n _ (.inl hfree)).mono fun _ _ hv => ⟨hv, .inl hfree⟩
        | _ =>
          have hfree : B.Free r := h.resolve_right fun h => (h.2 _ List.mem_cons_self).1
          exact (Expr.eval_matched hB n _ (.inl hfree)).mono fun _ _ hv => ⟨hv, .inl hfree⟩
      rw [Expr.evalAll, Expr.evalAll]
      refine .bind he fun v v' ⟨hv, hr⟩ => .bind (Expr.evalTemplates_matched hB _ rest (h.imp_right fun h =>
        ⟨h.1.2, fun e he => h.2 e (List.mem_cons_of_mem _ he)⟩)) fun vs vs' ⟨hvs, hrs⟩ => ?_
      refine .pure ⟨.cons hv hvs, ?_⟩
      rcases hr with hfree | hr
      · exact .inl hfree
      · refine hrs.imp_right fun hrs i hi => ?_
        rcases List.mem_cons.mp hi with hi | hi
        · exact hr i hi.symm
        · exact hrs i hi

theorem Arguments.eval_matched (hB : B.Runs r o d P) (n : Nat) : (as : Arguments) →
    (B.Free r ∨ as.Fits d P) →
    B.Attempted (fun p p' => Link.PassedAlike B.bare p p' ∧
        ∀ formals, as.Suit formals → Link.Suits formals p)
      (as.eval r B.settings B.env o n) (as.eval r B.settings B.env' o n)
  | .positional values, h => by
      rw [Arguments.eval, Arguments.eval]
      exact .bind (Expr.evalAll_matched hB n values h) fun _ _ hvs =>
        .pure ⟨.positional hvs.1, fun _ hs => Nat.le_trans (Nat.le_of_eq hvs.2) hs⟩
  | .named values, h => by
      rw [Arguments.eval, Arguments.eval]
      refine .bind (NamedArgument.evalAll_matched hB n values h) fun _ _ hes =>
        .pure ⟨.named hes.1, fun _ hs name hn => ?_⟩
      rw [hes.2] at hn
      obtain ⟨a, ha, rfl⟩ := List.mem_map.mp hn
      exact hs a ha

theorem NamedArgument.evalAll_matched (hB : B.Runs r o d P) (n : Nat) : (as : List NamedArgument) →
    (B.Free r ∨ NamedArgument.FitAll d P as) →
    B.Attempted
      (fun es es' => Entries.Alike B.bare es es' ∧ Dict.keys es = as.map fun a => a.name)
      (NamedArgument.evalAll r B.settings B.env o n as) (NamedArgument.evalAll r B.settings B.env' o n as)
  | [], _ => by
      rw [NamedArgument.evalAll, NamedArgument.evalAll]
      exact .pure ⟨.nil, rfl⟩
  | ⟨name, value, _⟩ :: rest, h => by
      rw [NamedArgument.evalAll, NamedArgument.evalAll]
      exact .bind (Expr.eval_matched hB n value (h.imp_right And.left)) fun _ _ hv =>
        .bind (NamedArgument.evalAll_matched hB _ rest (h.imp_right And.right)) fun _ _ hes =>
          .pure ⟨.cons name hv hes.1, congrArg (name :: ·) hes.2⟩

theorem TagOption.eval_matched (hB : B.Runs r o d P) (n : Nat) (wanted : String) : (os : List TagOption) →
    (B.Free r ∨ TagOption.Fits d P wanted os) →
    B.Attempted (Option.Rel (Value.Alike B.bare))
      (TagOption.eval r B.settings B.env o n wanted os) (TagOption.eval r B.settings B.env' o n wanted os)
  | [], _ => by
      rw [TagOption.eval, TagOption.eval]
      exact .pure .none
  | ⟨name, value, _⟩ :: rest, h => by
      rw [TagOption.eval, TagOption.eval]
      split
      · rename_i hn
        have hv := h.imp_right fun h => h.resolve_right fun h => by simp [hn] at h
        exact .bind (Expr.eval_matched hB n value (hv.imp_right And.right)) fun _ _ hv => .pure (.some hv)
      · rename_i hn
        have hr := h.imp_right fun h => h.resolve_left fun h => hn h.1
        exact TagOption.eval_matched hB n wanted rest (hr.imp_right And.right)

theorem Condition.eval_matched (hB : B.Runs r o d P) (n : Nat) : (c : Condition) →
    (B.Free r ∨ c.Fits d P) →
    B.Attempted Eq (c.eval r B.settings B.env o n) (c.eval r B.settings B.env' o n)
  | .value e, h => by
      rw [Condition.eval, Condition.eval]
      exact .bind (Expr.eval_matched hB n e h) fun _ _ hv => .pure hv.isTruthy_eq
  | .not c, h => by
      rw [Condition.eval, Condition.eval]
      exact .bind (Condition.eval_matched hB n c h) fun _ _ hb => .pure (congrArg _ hb)
  | .and a b, h => by
      rw [Condition.eval, Condition.eval]
      exact .bind (Condition.eval_matched hB n a (h.imp_right And.left)) fun _ _ ha =>
        .bind (Condition.eval_matched hB _ b (h.imp_right And.right)) fun _ _ hb => .pure (by rw [ha, hb])
  | .or a b, h => by
      rw [Condition.eval, Condition.eval]
      exact .bind (Condition.eval_matched hB n a (h.imp_right And.left)) fun _ _ ha =>
        .bind (Condition.eval_matched hB _ b (h.imp_right And.right)) fun _ _ hb => .pure (by rw [ha, hb])

theorem Element.eval_matched (hB : B.Runs r o d P) (n : Nat) : (e : Element) → (B.Free r ∨ e.Fits d P) →
    B.Attempted (fun _ _ => True) (e.eval r B.settings B.env o n)
      (e.eval r B.settings B.env' o n)
  | .text s, _ => by
      rw [Element.eval, Element.eval]
      exact .lift ((B.atPlace (hB.visited o.unplaced)).writeText s)
  | .tag value options s, h => by
      rw [Element.eval, Element.eval]
      refine .bind (Expr.eval_matched hB n value (h.imp_right fun h => h.1)) fun _ _ hv =>
        .bind (TagOption.eval_matched hB _ _ options (h.imp_right fun h => h.2.1)) fun _ _ hsep =>
          .bind (TagOption.eval_matched hB _ _ options (h.imp_right fun h => h.2.2.1)) fun _ _ hformat =>
            .bind (TagOption.eval_matched hB _ _ options (h.imp_right fun h => h.2.2.2)) fun _ _ hnull =>
              .bind (.lift ((B.atPlace (hB.visited (o.place s))).renderOptions hsep hformat hnull))
                fun set _ hset => ?_
      subst hset
      exact .lift ((B.atPlace (hB.visited (o.place s))).writeExpression set hv)
  | .choice branches none, h => by
      rw [Element.eval, Element.eval]
      exact Branch.eval_matched hB n branches h (.pure trivial)
  | .choice branches (some body), h => by
      rw [Element.eval, Element.eval]
      exact Branch.eval_matched hB n branches (h.imp_right And.left)
        (Element.evalAll_matched hB _ body (h.imp_right And.right))

theorem Element.evalAll_matched (hB : B.Runs r o d P) (n : Nat) : (es : List Element) →
    (B.Free r ∨ Element.FitAll d P es) →
    B.Attempted (fun _ _ => True) (Element.evalAll r B.settings B.env o n es)
      (Element.evalAll r B.settings B.env' o n es)
  | [], _ => by
      rw [Element.evalAll, Element.evalAll]
      exact .pure trivial
  | e :: rest, h => by
      rw [Element.evalAll, Element.evalAll]
      exact .bind (Element.eval_matched hB n e (h.imp_right And.left)) fun _ _ _ =>
        Element.evalAll_matched hB _ rest (h.imp_right And.right)

theorem Branch.eval_matched (hB : B.Runs r o d P) (n : Nat) {x y : Attempt Unit} : (bs : List Branch) →
    (B.Free r ∨ Branch.FitAll d P bs) → B.Attempted (fun _ _ => True) x y →
    B.Attempted (fun _ _ => True) (Branch.evalFirst r B.settings B.env o n x bs)
      (Branch.evalFirst r B.settings B.env' o n y bs)
  | [], _, hx => by
      rw [Branch.evalFirst, Branch.evalFirst]
      exact hx
  | ⟨condition, body, _⟩ :: rest, h, hx => by
      rw [Branch.evalFirst, Branch.evalFirst]
      refine .bind (Condition.eval_matched hB n condition (h.imp_right fun h => h.1)) fun b _ hb => ?_
      subst hb
      split
      · exact Element.evalAll_matched hB _ body (h.imp_right fun h => h.2.1)
      · exact Branch.eval_matched hB _ rest (h.imp_right fun h => h.2.2) hx

end

theorem evalDefaults_matched (ho : o.inDefault = true) (n : Nat) : (ds : List (String × Expr)) →
    (B.Free r ∨ ∃ d, B.Serves r d ∧ ∀ e ∈ ds, ∃ P, e.2.Fits d P) →
    B.Attempted (fun _ _ => True) (evalDefaults r B.settings B.env o n ds)
      (evalDefaults r B.settings B.env' o n ds)
  | [], _ => .pure trivial
  | (name, value) :: rest, h => by
      have hrest : B.Free r ∨ ∃ d, B.Serves r d ∧ ∀ e ∈ rest, ∃ P, e.2.Fits d P :=
        h.imp_right fun ⟨d, hserves, h⟩ => ⟨d, hserves, fun e he => h e (List.mem_cons_of_mem _ he)⟩
      refine .bind (P := fun _ _ => True) ?_ fun _ _ _ => evalDefaults_matched ho _ rest hrest
      have hvalue : B.Attempted (Value.Alike B.bare) (value.eval r B.settings B.env o n)
          (value.eval r B.settings B.env' o n) := by
        rcases h with hfree | ⟨d, hserves, h⟩
        · exact Expr.eval_matched (d := ⟨fun _ => none, fun _ => none, []⟩) (P := fun _ => True) (.inl hfree) n
            value (.inl hfree)
        · obtain ⟨P, hP⟩ := h _ List.mem_cons_self
          have ha : o.Allows P := fun s _ p hp => by simp [Origin.place, ho] at hp
          exact Expr.eval_matched (.inr ⟨hserves, ha⟩) n value (.inr hP)
      unfold evalDefault
      rw [B.isPassed_eq]
      split
      · exact .pure trivial
      · exact .bind hvalue fun _ _ hv => .lift (B.storeDefault name hv)

theorem Template.eval_matched {t : Template} (h : B.Free r ∨ ∃ d, B.Serves r d ∧ t.Fits d) :
    B.Attempted (fun _ _ => True) (t.eval r B.settings B.env) (t.eval r B.settings B.env') := by
  refine .bind (evalDefaults_matched rfl _ t.defaults ?_) fun _ _ _ => ?_
  · exact h.imp_right fun ⟨d, hserves, hfits⟩ => ⟨d, hserves, hfits.defaults⟩
  · rcases h with hfree | ⟨d, hserves, hfits⟩
    · exact Element.evalAll_matched (d := ⟨fun _ => none, fun _ => none, []⟩) (P := fun _ => True) (.inl hfree)
        _ t.body (.inl hfree)
    · obtain ⟨P, hP, hb⟩ := hfits.body
      exact Element.evalAll_matched (.inr ⟨hserves, hP⟩) _ t.body (.inr hb)

/-- The same tree runs in both. -/
theorem runTree_matched
    (h : B.Free r ∨ ∃ d, B.Serves r d ∧ (r.template B.env.here.bound.native B.env.program).Fits d) :
    B.Matched (fun _ _ => True) (runTree r B.settings B.env) (runTree r B.settings B.env') := by
  unfold runTree
  rw [← B.abreast.native, ← B.program_here]
  exact .bind (Template.eval_matched h) fun _ _ _ => .pure trivial

end Stencil
