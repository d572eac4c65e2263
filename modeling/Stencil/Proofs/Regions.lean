import Stencil.Proofs.Constructs
import Stencil.Proofs.WellFormed
/-! Lines of code are the work of constructs, and problems are found in constructs. So the regions that come with lines
and problems are those of constructs. -/

namespace Stencil

/-! ## Lines of code -/

/-- An instruction that stands for no region: it writes literal text, or finds a truth from others. -/
def Instr.Unplaced {τ ι : Type} : Instr τ ι → Prop
  | .text _ | .not | .and | .or => True
  | _ => False

theorem Instr.unplaced_convert {τ ι τ' ι' : Type} (f : τ → τ') (g : ι → ι') (i : Instr τ ι) :
    (i.convert f g).Unplaced ↔ i.Unplaced := by cases i <;> exact .rfl

theorem Construct.Executes.not_unplaced {c : Construct} {i : Instr String Code} (h : c.Executes i) : ¬ i.Unplaced := by
  cases h <;> exact id

/-- A line that has a region is written in the source. It is the work of a construct of some trees that has that region,
or else stands for none, and then comes with the end of the source. A template without a name that it holds is one of
the trees. -/
structure Line.Stands (R : Node → Prop) (o : Origin) (l : Line String Code) : Prop where
  place : ∀ s ∈ l.span, o.inDefault = false ∧
    (l.instr.Unplaced ∧ s = ⟨o.source.utf8ByteSize, 0⟩ ∨ ∃ c : Construct, c.Of R ∧ c.Executes l.instr ∧ c.span = s)
  inner : ∀ code ∈ l.instr.inner?, ∃ n parameter body, code = (Template.ofAnonymous o n parameter body).code ∧
    ∀ x ∈ body, R (.element x)

theorem Origin.of_place {o : Origin} {s p : Span} (h : p ∈ o.place s) : o.inDefault = false ∧ s = p := by
  unfold place at h
  split at h
  · cases h
  · exact ⟨Bool.not_eq_true _ ▸ ‹_›, Option.some.inj h⟩

/-- Lines that all are the work of constructs. -/
def Line.AllStand (R : Node → Prop) (o : Origin) (lines : List (Line String Code)) : Prop := ∀ l ∈ lines, l.Stands R o

namespace Line.AllStand

variable {R : Node → Prop} {o : Origin} {first rest : List (Line String Code)} {i : Instr String Code}

theorem nil : AllStand R o [] := List.forall_mem_nil _

theorem append (h : AllStand R o first) (h' : AllStand R o rest) : AllStand R o (first ++ rest) :=
  List.forall_mem_append.mpr ⟨h, h'⟩

/-- A line of a construct in front of others. -/
theorem cons {c : Construct} {s : Span} (hc : c.Of R) (he : c.Executes i) (hi : i.inner? = none) (hs : c.span = s)
    (h : AllStand R o rest) : AllStand R o (⟨i, o.place s⟩ :: rest) := by
  refine List.forall_mem_cons.mpr ⟨⟨fun p hp => ?_, fun code h => ?_⟩, h⟩
  · obtain ⟨ho, rfl⟩ := Origin.of_place hp
    exact ⟨ho, .inr ⟨c, hc, he, hs⟩⟩
  · cases hi.symm.trans h

theorem last {c : Construct} {s : Span} (hc : c.Of R) (he : c.Executes i) (hi : i.inner? = none) (hs : c.span = s) :
    AllStand R o [⟨i, o.place s⟩] := cons hc he hi hs nil

/-- The line of an expression. -/
theorem expr {mapped : Bool} {e : Expr} (h : R (.expr mapped e)) (he : (Construct.expr mapped e).Executes i)
    (hi : i.inner? = none) : AllStand R o [⟨i, o.place e.span⟩] :=
  last ⟨_, h, List.mem_cons_self⟩ he hi rfl

theorem unplaced (hi : i.Unplaced) (h : i.inner? = none) : AllStand R o [⟨i, o.unplaced⟩] :=
  List.forall_mem_singleton.mpr ⟨fun _ hp => (Origin.of_place hp).imp_right fun hs => .inl ⟨hi, hs.symm⟩,
    fun _ hc => by cases h.symm.trans hc⟩

end Line.AllStand

open Line (AllStand)

section

variable {R : Node → Prop} {o : Origin}

/-- Named arguments of an expression are constructs of it. -/
theorem Construct.Of.arguments {mapped : Bool} {e : Expr} (h : R (.expr mapped e)) :
    ∀ a ∈ e.namedArguments, (Construct.argument a).Of R := fun _ ha =>
  ⟨_, h, List.mem_cons_of_mem _ (List.mem_append_right _ (List.mem_map_of_mem ha))⟩

/-- Branches of a conditional are constructs of it. -/
theorem Construct.Of.branches {branches : List Branch} {otherwise : Option (List Element)}
    (h : R (.element (.choice branches otherwise))) : ∀ b ∈ branches, ∃ first, (Construct.branch first b).Of R := by
  intro b hb
  cases hb with
  | head => exact ⟨true, _, h, List.mem_cons_self⟩
  | tail _ hb => exact ⟨false, _, h, List.mem_cons_of_mem _ (List.mem_map_of_mem hb)⟩

mutual

theorem Expr.lower_stands (hR : Node.Closed R) (n : Nat) : (e : Expr) → (mapped : Bool) → R (.expr mapped e) →
    AllStand R o (e.lower o n)
  | .attribute _ _, _, h => .expr h .attribute rfl
  | .literal _ _, _, h => .expr h .literal rfl
  | .truth _ _, _, h => .expr h .truth rfl
  | .list items _, _, h =>
      .append (Expr.lowerAll_stands hR n items _ (List.forall_mem_map.mp (hR _ h))) (.expr h .list rfl)
  | .property target _ _, _, h =>
      .append (target.lower_stands hR n _ (hR _ h _ List.mem_cons_self)) (.expr h .property rfl)
  | .propertyAt target key _, _, h => .append (target.lower_stands hR n _ (hR _ h _ List.mem_cons_self))
      (.append (key.lower_stands hR _ _ (hR _ h _ (List.mem_cons_of_mem _ List.mem_cons_self)))
        (.expr h .propertyAt rfl))
  | .call _ arguments _, _, h => .append (arguments.lower_stands hR n (List.forall_mem_map.mp (hR _ h)) (.arguments h))
      (.expr h .call rfl)
  | .callComputed name arguments _, _, h =>
      have ⟨hname, harguments⟩ := List.forall_mem_cons.mp (hR _ h)
      .append (name.lower_stands hR n _ hname)
        (.cons ⟨_, h, List.mem_cons_of_mem _ (List.mem_append_left _ List.mem_cons_self)⟩ .name rfl rfl
          (.append (arguments.lower_stands hR _ (List.forall_mem_map.mp harguments) (.arguments h))
            (.expr h .callComputed rfl)))
  | .rendered value _, _, h =>
      .append (value.lower_stands hR n _ (hR _ h _ List.mem_cons_self)) (.expr h .rendered rfl)
  | .builtin _ argument _, _, h =>
      .append (argument.lower_stands hR n _ (hR _ h _ List.mem_cons_self)) (.expr h .builtin rfl)
  | .anonymous parameter body _, _, h => by
      refine List.forall_mem_singleton.mpr ⟨fun p hp => ?_, fun code hc => ?_⟩
      · obtain ⟨ho, rfl⟩ := Origin.of_place hp
        exact ⟨ho, .inr ⟨_, ⟨_, h, List.mem_cons_self⟩, .anonymous, rfl⟩⟩
      · cases hc
        exact ⟨n, parameter, body, rfl, List.forall_mem_map.mp (hR _ h)⟩
  | .map target templates _, _, h =>
      have ⟨htarget, htemplates⟩ := List.forall_mem_cons.mp (hR _ h)
      .append (target.lower_stands hR n _ htarget)
        (.append (Expr.lowerAll_stands hR _ templates _ (List.forall_mem_map.mp htemplates)) (.expr h .map rfl))

theorem Expr.lowerAll_stands (hR : Node.Closed R) (n : Nat) : (es : List Expr) → (mapped : Bool) →
    (∀ e ∈ es, R (.expr mapped e)) → AllStand R o (Expr.lowerAll o n es)
  | [], _, _ => .nil
  | e :: rest, _, h =>
      have ⟨he, hrest⟩ := List.forall_mem_cons.mp h
      .append (e.lower_stands hR n _ he) (Expr.lowerAll_stands hR _ rest _ hrest)

theorem Arguments.lower_stands (hR : Node.Closed R) (n : Nat) : (as : Arguments) →
    (∀ e ∈ as.values, R (.expr false e)) → (∀ a ∈ as.labelled, (Construct.argument a).Of R) →
    AllStand R o (as.lower o n)
  | .positional values, h, _ => Expr.lowerAll_stands hR n values _ h
  | .named values, h, ha => NamedArgument.lowerAll_stands hR n values h ha

theorem NamedArgument.lowerAll_stands (hR : Node.Closed R) (n : Nat) : (as : List NamedArgument) →
    (∀ e ∈ as.map NamedArgument.value, R (.expr false e)) → (∀ a ∈ as, (Construct.argument a).Of R) →
    AllStand R o (NamedArgument.lowerAll o n as)
  | [], _, _ => .nil
  | ⟨_, value, _⟩ :: rest, h, ha =>
      have ⟨hv, hrest⟩ := List.forall_mem_cons.mp h
      have ⟨hc, hcs⟩ := List.forall_mem_cons.mp ha
      .cons hc .argument rfl rfl
        (.append (value.lower_stands hR n _ hv) (NamedArgument.lowerAll_stands hR _ rest hrest hcs))

end

theorem TagOption.lower_stands (hR : Node.Closed R) (n : Nat) (wanted : String) : (os : List TagOption) →
    (∀ o ∈ os, R (.expr false o.value)) → AllStand R o (TagOption.lower o n wanted os)
  | [], _ => .nil
  | ⟨name, value, _⟩ :: rest, h => by
      obtain ⟨hv, hrest⟩ := List.forall_mem_cons.mp h
      rw [TagOption.lower]
      split
      · exact value.lower_stands hR n _ hv
      · exact TagOption.lower_stands hR n wanted rest hrest

theorem Condition.lower_stands (hR : Node.Closed R) (n : Nat) : (c : Condition) → R (.condition c) →
    AllStand R o (c.lower o n)
  | .value e, h => e.lower_stands hR n _ (hR _ h _ List.mem_cons_self)
  | .not c, h => .append (c.lower_stands hR n (hR _ h _ List.mem_cons_self)) (.unplaced trivial rfl)
  | .and a b, h | .or a b, h => .append (a.lower_stands hR n (hR _ h _ List.mem_cons_self))
      (.append (b.lower_stands hR _ (hR _ h _ (List.mem_cons_of_mem _ List.mem_cons_self))) (.unplaced trivial rfl))

mutual

theorem Element.lower_stands (hR : Node.Closed R) (n start : Nat) : (e : Element) → R (.element e) →
    AllStand R o (e.lower o n start)
  | .text _, _ => .unplaced trivial rfl
  | .tag value options _, h =>
      have ⟨hv, ho⟩ := List.forall_mem_cons.mp (hR _ h)
      have ho := List.forall_mem_map.mp ho
      .append (value.lower_stands hR n _ hv) (.append (TagOption.lower_stands hR _ _ options ho)
        (.append (TagOption.lower_stands hR _ _ options ho) (.append (TagOption.lower_stands hR _ _ options ho)
          (.last ⟨_, h, List.mem_cons_self⟩ .tag rfl rfl))))
  | .choice branches none, h =>
      have hbranches := List.forall_mem_flatMap.mp (List.forall_mem_append.mp (hR _ h)).1
      .append (Branch.join_stands hR n start _ branches hbranches (Construct.Of.branches h)) .nil
  | .choice branches (some body), h =>
      have ⟨hb, ho⟩ := List.forall_mem_append.mp (hR _ h)
      .append (Branch.join_stands hR n start _ branches (List.forall_mem_flatMap.mp hb) (Construct.Of.branches h))
        (Element.lowerAll_stands hR _ _ body (List.forall_mem_map.mp ho))

theorem Element.lowerAll_stands (hR : Node.Closed R) (n start : Nat) : (es : List Element) →
    (∀ e ∈ es, R (.element e)) → AllStand R o (Element.lowerAll o n start es)
  | [], _ => .nil
  | e :: rest, h =>
      have ⟨he, hrest⟩ := List.forall_mem_cons.mp h
      .append (e.lower_stands hR n start he) (Element.lowerAll_stands hR _ _ rest hrest)

theorem Branch.join_stands (hR : Node.Closed R) (n start exit : Nat) : (bs : List Branch) →
    (∀ b ∈ bs, ∀ p ∈ Node.condition b.condition :: b.body.map .element, R p) →
    (∀ b ∈ bs, ∃ first, (Construct.branch first b).Of R) →
    AllStand R o (Branch.join exit (Branch.lowerAll o n start bs))
  | [], _, _ => .nil
  | ⟨condition, body, _⟩ :: rest, h, hs =>
      have ⟨hb, hrest⟩ := List.forall_mem_cons.mp h
      have ⟨⟨_, hc⟩, hcs⟩ := List.forall_mem_cons.mp hs
      have ⟨hcondition, hbody⟩ := List.forall_mem_cons.mp hb
      .append (.append (.append (condition.lower_stands hR n hcondition)
        (.cons hc .test rfl rfl (Element.lowerAll_stands hR _ _ body (List.forall_mem_map.mp hbody))))
        (.last hc .exit rfl rfl)) (Branch.join_stands hR _ _ exit rest hrest hcs)

end

end

/-! ## Templates -/

/-- A tree that is written in the source of an origin, or in a default. -/
def Origin.Holds (o : Origin) (n : Node) : Prop := o.inDefault = true ∨ n.In o.source

theorem Origin.closed_holds (o : Origin) : Node.Closed o.Holds := fun n h p hp => h.imp_right fun hn =>
  Node.closed_in _ n hn p hp

/-- A template that is written in the source that it has, or in a default. -/
def Template.Written (t : Template) : Prop := ∀ x ∈ t.body, t.origin.Holds (.element x)

/-- The code of a template that is written in the source. -/
def Code.Written (c : Code) : Prop := ∃ t : Template, t.Written ∧ t.code = c

namespace Template

variable {t : Template}

theorem defaults_stand {o : Origin} (ho : o.inDefault = true) (n start : Nat) : (ds : List (String × Expr)) →
    AllStand (fun _ => True) o (lowerDefaults o n start ds)
  | [] => .nil
  | (_, value) :: rest => by
      have hline {i : Instr String Code} (hi : i.inner? = none) : AllStand (fun _ => True) o [⟨i, o.place value.span⟩] :=
        List.forall_mem_singleton.mpr ⟨fun p hp => (by cases ho.symm.trans (Origin.of_place hp).1),
          fun _ hc => (by cases hi.symm.trans hc)⟩
      have hvalue := value.lower_stands (o := o) (fun _ _ _ _ => trivial) n false trivial
      exact .append ((hline rfl).append (hvalue.append (hline rfl))) (defaults_stand ho _ _ rest)

theorem Written.stands (h : t.Written) {l : Line String Code} (hl : l ∈ t.lines) :
    l.Stands (fun _ => True) { t.origin with inDefault := true } ∨ l.Stands t.origin.Holds t.origin :=
  (List.mem_append.mp hl).imp (defaults_stand rfl _ _ _ l)
    (Element.lowerAll_stands t.origin.closed_holds _ _ _ h l)

/-- The lines of a template that is written in a source are the work of constructs of the source, or else have no region
or stand for its end. -/
theorem Written.place (h : t.Written) {l : Line String Code} (hl : l ∈ t.lines) {s : Span} (hs : s ∈ l.span) :
    l.instr.Unplaced ∧ s = ⟨t.origin.source.utf8ByteSize, 0⟩ ∨
      ∃ c : Construct, c.Of (Node.In t.origin.source) ∧ c.Executes l.instr ∧ c.span = s := by
  rcases h.stands hl with hd | hb
  · cases (hd.place s hs).1
  · obtain ⟨ho, hc⟩ := hb.place s hs
    refine hc.imp_right fun ⟨c, ⟨n, hn, hc⟩, he⟩ => ⟨c, ⟨n, hn.resolve_left ?_, hc⟩, he⟩
    rw [ho]
    exact Bool.false_ne_true

/-- Templates without a name are written where the template around them is. -/
theorem Written.inner (h : t.Written) {c : Code} (hc : c ∈ t.code.inner) : c.Written := by
  obtain ⟨l, hl, hc⟩ := List.mem_filterMap.mp hc
  rcases h.stands hl with hd | hb
  · obtain ⟨n, parameter, body, rfl, -⟩ := hd.inner c hc
    exact ⟨.ofAnonymous { t.origin with inDefault := true } n parameter body, fun _ _ => .inl rfl, rfl⟩
  · obtain ⟨n, parameter, body, rfl, hbody⟩ := hb.inner c hc
    exact ⟨.ofAnonymous t.origin n parameter body, hbody, rfl⟩

/-- A template that is read is written in its source. -/
theorem written_of_read {name source : String} {formals : Formals} (h : read name formals source = .ok t) :
    t.Written := by
  unfold read at h
  split at h
  · cases h
  · rename_i body hb
    dsimp only at h
    split at h
    · cases h
      exact fun x hx => .inr ⟨body, hb, x, hx, [], .self _⟩
    · cases h

end Template

/-- Code that is written in a source has only such code inside. -/
theorem Code.Written.inside {c d : Code} (h : d.Written) (hc : c.Inside d) : c.Written := by
  induction hc with
  | here => exact h
  | deeper hm _ ih =>
    obtain ⟨t, ht, rfl⟩ := h
    exact ih (ht.inner hm)

/-- A program that is compiled is written in its source. -/
theorem Program.written_of_compile {directory : Directory} {name source : String} {formals : Formals} {p : Program}
    (h : compile directory name formals source = .ok p) : p.toCode.Written := by
  obtain ⟨t, ht, -, hcode, -⟩ := of_compile h
  exact ⟨t, t.written_of_read ht, hcode⟩

/-! ## Problems -/

/-- A problem is found in the region of a construct of some trees that it is one of. -/
def Finding.Stands (R : Node → Prop) (f : Finding) : Prop := ∃ c : Construct, c.Of R ∧ c.Raises f.problem ∧ c.span = f.span

/-- Problems that all are found in constructs. -/
def Finding.AllStand (R : Node → Prop) (fs : List Finding) : Prop := ∀ f ∈ fs, f.Stands R

namespace Finding.AllStand

variable {R : Node → Prop} {fs fs' : List Finding}

theorem nil : AllStand R [] := List.forall_mem_nil _

theorem append (h : AllStand R fs) (h' : AllStand R fs') : AllStand R (fs ++ fs') := List.forall_mem_append.mpr ⟨h, h'⟩

theorem cons {c : Construct} {p : Problem} (hc : c.Of R) (hp : c.Raises p) (h : AllStand R fs) :
    AllStand R (⟨p, c.span⟩ :: fs) := List.forall_mem_cons.mpr ⟨⟨c, hc, hp, rfl⟩, h⟩

theorem single {c : Construct} {p : Problem} (hc : c.Of R) (hp : c.Raises p) : AllStand R [⟨p, c.span⟩] :=
  cons hc hp nil

theorem ite {b : Prop} [Decidable b] (h : AllStand R fs) (h' : AllStand R fs') :
    AllStand R (if b then fs else fs') := by
  split
  · exact h
  · exact h'

end Finding.AllStand

open Finding (AllStand)

section

variable {R : Node → Prop}

theorem callFindings_stand (d : Directory) {mapped : Bool} {callee : Callee} {arguments : Arguments} {span : Span}
    (h : R (.expr mapped (.call callee arguments span))) :
    AllStand R (callFindings d mapped callee arguments span) := by
  have hc : (Construct.expr mapped (.call callee arguments span)).Of R := ⟨_, h, List.mem_cons_self⟩
  unfold callFindings
  cases arguments with
  | positional values =>
    dsimp only
    split
    · exact .single hc .callee
    · cases mapped with
      | true =>
        rw [if_pos rfl]
        exact .append (.ite .nil (.single hc .positional)) (.ite .nil (.single hc .receiver))
      | false =>
        rw [if_neg Bool.false_ne_true]
        exact .ite (.single hc .tooMany) .nil
  | named values =>
    dsimp only
    split
    · exact .single hc .callee
    · cases mapped with
      | true =>
        rw [if_pos rfl, if_pos rfl]
        exact .append .nil (.ite .nil (.single hc .receiver))
      | false =>
        rw [if_neg Bool.false_ne_true, if_neg (Nat.not_lt_zero _)]
        exact .nil

/-- The names of options are those of constructs. -/
theorem TagOption.nameFindings_stand (seen : List String) : (os : List TagOption) →
    (∀ o ∈ os, (Construct.option o).Of R) → AllStand R (TagOption.nameFindings seen os)
  | [], _ => .nil
  | o :: rest, h => by
      obtain ⟨hc, hcs⟩ := List.forall_mem_cons.mp h
      rw [TagOption.nameFindings]
      exact .ite (.cons hc .option (TagOption.nameFindings_stand seen rest hcs))
        (.ite (.cons hc .again (TagOption.nameFindings_stand seen rest hcs))
          (TagOption.nameFindings_stand _ rest hcs))

mutual

theorem Expr.findings_stand (hR : Node.Closed R) (s : Scope) : (e : Expr) → (mapped : Bool) → R (.expr mapped e) →
    AllStand R (e.findings s mapped)
  | .attribute name span, mapped, h => by
      rw [Expr.findings]
      exact .ite .nil (.single (c := .expr mapped (.attribute name span)) ⟨_, h, List.mem_cons_self⟩ .attribute)
  | .literal _ _, _, _ | .truth _ _, _, _ => .nil
  | .list items _, _, h => Expr.findingsAll_stand hR s items _ (List.forall_mem_map.mp (hR _ h))
  | .property target _ _, _, h | .rendered target _, _, h | .builtin _ target _, _, h =>
      target.findings_stand hR s _ (hR _ h _ List.mem_cons_self)
  | .propertyAt target key _, _, h => .append (target.findings_stand hR s _ (hR _ h _ List.mem_cons_self))
      (key.findings_stand hR s _ (hR _ h _ (List.mem_cons_of_mem _ List.mem_cons_self)))
  | .call _ arguments _, _, h => .append (callFindings_stand _ h)
      (arguments.findings_stand hR s _ (List.forall_mem_map.mp (hR _ h)) (.arguments h))
  | .callComputed name arguments span, mapped, h => by
      obtain ⟨hname, harguments⟩ := List.forall_mem_cons.mp (hR _ h)
      refine .append (.append ?_ (name.findings_stand hR s _ hname))
        (arguments.findings_stand hR s _ (List.forall_mem_map.mp harguments) (.arguments h))
      cases mapped with
      | false => exact .nil
      | true =>
        cases arguments with
        | positional values => exact .ite (.single ⟨_, h, List.mem_cons_self⟩ .computed) .nil
        | named values => exact .nil
  | .anonymous _ body _, _, h => Element.findingsAll_stand hR _ body (List.forall_mem_map.mp (hR _ h))
  | .map target templates _, _, h =>
      have ⟨htarget, htemplates⟩ := List.forall_mem_cons.mp (hR _ h)
      .append (target.findings_stand hR s _ htarget)
        (Expr.findingsAll_stand hR s templates _ (List.forall_mem_map.mp htemplates))

theorem Expr.findingsAll_stand (hR : Node.Closed R) (s : Scope) : (es : List Expr) → (mapped : Bool) →
    (∀ e ∈ es, R (.expr mapped e)) → AllStand R (Expr.findingsAll s mapped es)
  | [], _, _ => .nil
  | e :: rest, _, h =>
      have ⟨he, hrest⟩ := List.forall_mem_cons.mp h
      .append (e.findings_stand hR s _ he) (Expr.findingsAll_stand hR s rest _ hrest)

theorem Arguments.findings_stand (hR : Node.Closed R) (s : Scope) (callee : Option (String × Formals)) :
    (as : Arguments) → (∀ e ∈ as.values, R (.expr false e)) → (∀ a ∈ as.labelled, (Construct.argument a).Of R) →
    AllStand R (as.findings s callee)
  | .positional values, h, _ => Expr.findingsAll_stand hR s values _ h
  | .named values, h, ha => NamedArgument.findingsAll_stand hR s callee [] values h ha

theorem NamedArgument.findingsAll_stand (hR : Node.Closed R) (s : Scope) (callee : Option (String × Formals))
    (seen : List String) : (as : List NamedArgument) → (∀ e ∈ as.map NamedArgument.value, R (.expr false e)) →
    (∀ a ∈ as, (Construct.argument a).Of R) → AllStand R (NamedArgument.findingsAll s callee seen as)
  | [], _, _ => .nil
  | ⟨name, value, span⟩ :: rest, h, ha => by
      obtain ⟨hv, hrest⟩ := List.forall_mem_cons.mp h
      obtain ⟨hc, hcs⟩ := List.forall_mem_cons.mp ha
      refine .append (.append ?_ (value.findings_stand hR s _ hv))
        (NamedArgument.findingsAll_stand hR s callee _ rest hrest hcs)
      refine .ite (.single (c := .argument ⟨name, value, span⟩) hc .duplicate) ?_
      split
      · exact .ite .nil (.single (c := .argument ⟨name, value, span⟩) hc .parameter)
      · exact .nil

theorem TagOption.valueFindings_stand (hR : Node.Closed R) (s : Scope) (wanted : String) : (os : List TagOption) →
    (∀ o ∈ os, R (.expr false o.value)) → AllStand R (TagOption.valueFindings s wanted os)
  | [], _ => .nil
  | ⟨name, value, _⟩ :: rest, h => by
      obtain ⟨hv, hrest⟩ := List.forall_mem_cons.mp h
      rw [TagOption.valueFindings]
      split
      · exact value.findings_stand hR s _ hv
      · exact TagOption.valueFindings_stand hR s wanted rest hrest

theorem Condition.findings_stand (hR : Node.Closed R) (s : Scope) : (c : Condition) → R (.condition c) →
    AllStand R (c.findings s)
  | .value e, h => e.findings_stand hR s _ (hR _ h _ List.mem_cons_self)
  | .not c, h => c.findings_stand hR s (hR _ h _ List.mem_cons_self)
  | .and a b, h | .or a b, h => .append (a.findings_stand hR s (hR _ h _ List.mem_cons_self))
      (b.findings_stand hR s (hR _ h _ (List.mem_cons_of_mem _ List.mem_cons_self)))

theorem Element.findings_stand (hR : Node.Closed R) (s : Scope) : (e : Element) → R (.element e) →
    AllStand R (e.findings s)
  | .text _, _ => .nil
  | .tag value options _, h => by
      obtain ⟨hv, ho⟩ := List.forall_mem_cons.mp (hR _ h)
      have ho := List.forall_mem_map.mp ho
      have hnames : AllStand R (TagOption.nameFindings [] options) := TagOption.nameFindings_stand [] options fun o ho =>
        ⟨_, h, List.mem_cons_of_mem _ (List.mem_map_of_mem ho)⟩
      rw [Element.findings]
      exact .append (.append (.append (.append (value.findings_stand hR s _ hv) hnames)
        (TagOption.valueFindings_stand hR s _ options ho)) (TagOption.valueFindings_stand hR s _ options ho))
        (TagOption.valueFindings_stand hR s _ options ho)
  | .choice branches none, h => by
      have hbranches := List.forall_mem_flatMap.mp (List.forall_mem_append.mp (hR _ h)).1
      rw [Element.findings]
      exact .append (Branch.findingsAll_stand hR s branches hbranches) .nil
  | .choice branches (some body), h => by
      have ⟨hb, ho⟩ := List.forall_mem_append.mp (hR _ h)
      rw [Element.findings]
      exact .append (Branch.findingsAll_stand hR s branches (List.forall_mem_flatMap.mp hb))
        (Element.findingsAll_stand hR s body (List.forall_mem_map.mp ho))

theorem Element.findingsAll_stand (hR : Node.Closed R) (s : Scope) : (es : List Element) →
    (∀ e ∈ es, R (.element e)) → AllStand R (Element.findingsAll s es)
  | [], _ => .nil
  | e :: rest, h =>
      have ⟨he, hrest⟩ := List.forall_mem_cons.mp h
      .append (e.findings_stand hR s he) (Element.findingsAll_stand hR s rest hrest)

theorem Branch.findingsAll_stand (hR : Node.Closed R) (s : Scope) : (bs : List Branch) →
    (∀ b ∈ bs, ∀ p ∈ Node.condition b.condition :: b.body.map .element, R p) →
    AllStand R (Branch.findingsAll s bs)
  | [], _ => .nil
  | ⟨condition, body, _⟩ :: rest, h =>
      have ⟨hb, hrest⟩ := List.forall_mem_cons.mp h
      have ⟨hcondition, hbody⟩ := List.forall_mem_cons.mp hb
      .append (.append (condition.findings_stand hR s hcondition)
        (Element.findingsAll_stand hR s body (List.forall_mem_map.mp hbody))) (Branch.findingsAll_stand hR s rest hrest)

end

end

end Stencil
