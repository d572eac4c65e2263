import Stencil.Proofs.Versions
import Stencil.Proofs.WellFormed
/-! Code of templates in other words. Where only options stand in another order, the code is the same but for the source
that it comes from. -/

namespace Stencil

/-! ## Code without its source -/

/-- Parameters without defaults. -/
def Formals.bare : Formals → Formals
  | .any => .any
  | .declared ps => .ofNames (ps.map Parameter.name)

mutual

/-- Code without its source, the regions of it and the texts of defaults. -/
def Code.bare : Code → Code
  | ⟨name, formals, _, lines, constants, inner, anonymous⟩ =>
    ⟨name, formals.bare, "", lines.map fun l => ⟨l.instr, none⟩, constants, Code.bareAll inner, anonymous⟩

def Code.bareAll : List Code → List Code
  | [] => []
  | c :: rest => c.bare :: Code.bareAll rest

end

/-- A line without the region of source that it stands for. -/
def Line.bare (l : Line String Code) : Line String Code := ⟨l.instr.convert id Code.bare, none⟩

theorem Code.bareAll_eq (cs : List Code) : Code.bareAll cs = cs.map Code.bare := by
  induction cs with
  | nil => rfl
  | cons c cs ih => rw [bareAll, ih, List.map_cons]

theorem Line.pool_bare (constants : List String) (k : Nat) (lines : List (Line String Code)) :
    (pool constants k lines).map (fun l => (⟨l.instr, none⟩ : Line Nat Nat)) = pool constants k (lines.map bare) := by
  induction lines generalizing k with
  | nil => rfl
  | cons l lines ih =>
    have hi : (l.instr.convert id Code.bare).convert constants.idxOf (fun _ => k) =
        l.instr.convert constants.idxOf fun _ => k := by cases l.instr <;> rfl
    rw [pool, List.map_cons, List.map_cons, pool, ih, bare, hi, Instr.inner?_convert]
    cases l.instr.inner? <;> rfl

theorem Code.bare_assemble (name : String) (formals : Formals) (source : String) (anonymous : Bool)
    (lines : List (Line String Code)) : (assemble name formals source anonymous lines).bare =
      assemble name formals.bare "" anonymous (lines.map Line.bare) := by
  have hconstants : (lines.map Line.bare).filterMap (fun l => l.instr.constant?) =
      lines.filterMap fun l => l.instr.constant? := by
    rw [List.filterMap_map]
    refine List.filterMap_congr fun l _ => ?_
    exact (Instr.constant?_convert ..).trans (congrFun Option.map_id _)
  have hinner : (lines.map Line.bare).filterMap (fun l => l.instr.inner?) =
      (lines.filterMap fun l => l.instr.inner?).map Code.bare := by
    rw [List.filterMap_map, List.map_filterMap]
    exact List.filterMap_congr fun l _ => Instr.inner?_convert ..
  rw [assemble, assemble, hconstants, hinner, bare, Line.pool_bare, bareAll_eq]

/-- Lines of the same code. -/
def Line.Same (lines lines' : List (Line String Code)) : Prop := lines.map bare = lines'.map bare

namespace Line.Same

variable {first first' rest rest' : List (Line String Code)}

theorem append (h : Same first first') (h' : Same rest rest') : Same (first ++ rest) (first' ++ rest') := by
  rw [Same, List.map_append, List.map_append]
  exact congrArg₂ (· ++ ·) h h'

theorem cons (i : Instr String Code) (place place' : Option Span) (h : Same rest rest') :
    Same (⟨i, place⟩ :: rest) (⟨i, place'⟩ :: rest') := congrArg (bare ⟨i, none⟩ :: ·) h

theorem single (i : Instr String Code) (place place' : Option Span) : Same [⟨i, place⟩] [⟨i, place'⟩] :=
  .cons i place place' rfl

theorem length_eq (h : Same first first') : first.length = first'.length := by
  simpa using congrArg List.length h

/-- A template without a name is the same if its lines are. -/
theorem createAnonymous (name : String) (formals : Formals) (source source' : String) (h : Same first first')
    (place place' : Option Span) : Same [⟨.createAnonymous (.assemble name formals source true first), place⟩]
      [⟨.createAnonymous (.assemble name formals source' true first'), place'⟩] := by
  have hc : (Code.assemble name formals source true first).bare =
      (Code.assemble name formals source' true first').bare := by
    rw [Code.bare_assemble, Code.bare_assemble, h]
  exact congrArg (fun c => [Line.mk (.createAnonymous c) none]) hc

end Line.Same

/-! ## Options in another order -/

namespace TagOption

/-- Of the options of a name, only the first one is lowered. -/
theorem lower_eq_first (o : Origin) (n : Nat) (wanted : String) (os : List TagOption) : lower o n wanted os =
    ((os.find? fun option => option.name == wanted).map fun option => option.value.lower o n).getD [] := by
  induction os with
  | nil => rfl
  | cons option os ih =>
    obtain ⟨name, value, s⟩ := option
    rw [lower, List.find?_cons]
    cases hn : name == wanted with
    | true => rfl
    | false => exact ih

theorem started_eq_first (wanted : String) (os : List TagOption) : started wanted os =
    ((os.find? fun option => option.name == wanted).map fun option => option.value.started).getD 0 := by
  induction os with
  | nil => rfl
  | cons option os ih =>
    obtain ⟨name, value, s⟩ := option
    rw [started, List.find?_cons]
    cases hn : name == wanted with
    | true => rfl
    | false => exact ih

/-- Which options are present depends on their names alone. -/
theorem present_perm {os os' : List TagOption} (h : (os.map name).Perm (os'.map name)) : present os = present os' := by
  have hany (os : List TagOption) (wanted : String) :
      (os.any fun option => option.name == wanted) = (os.map name).contains wanted := by
    rw [List.contains_eq_any_beq, List.any_map]
    exact List.any_congr rfl fun _ => BEq.comm
  simp only [present, hany, h.contains_eq]

end TagOption

/-- No arguments are passed in other words. -/
def Naming.none : Naming := fun _ _ => False

variable {o o' : Origin}

/-- A tag has the same code if its value and its options have. -/
theorem Element.lower_tag {e e' : Expr} {os os' os'' : List TagOption}
    (h : e.started = e'.started ∧ ∀ n, Line.Same (e.lower o n) (e'.lower o' n))
    (hos : ∀ wanted, TagOption.started wanted os = TagOption.started wanted os' ∧
      ∀ n, Line.Same (TagOption.lower o n wanted os) (TagOption.lower o' n wanted os'))
    (hn : os.map TagOption.name = os'.map TagOption.name) (hr : TagOption.Reordered os' os'') (s s' : Span) :
    (Element.tag e os s).started = (Element.tag e' os'' s').started ∧
      ∀ n start, Line.Same ((Element.tag e os s).lower o n start) ((Element.tag e' os'' s').lower o' n start) := by
  have hpresent : TagOption.present os = TagOption.present os'' :=
    TagOption.present_perm (by rw [hn]; exact hr.perm.map _)
  have hstarted (wanted : String) : TagOption.started wanted os = TagOption.started wanted os'' := by
    rw [(hos wanted).1, TagOption.started_eq_first, hr.find?_eq, ← TagOption.started_eq_first]
  have hoption (n : Nat) (wanted : String) :
      Line.Same (TagOption.lower o n wanted os) (TagOption.lower o' n wanted os'') := by
    rw [TagOption.lower_eq_first o' n wanted os'', ← hr.find?_eq, ← TagOption.lower_eq_first]
    exact (hos wanted).2 n
  constructor
  · rw [Element.started, Element.started, h.1, hstarted, hstarted, hstarted]
  · intro n start
    rw [Element.lower, Element.lower, hpresent, h.1, hstarted "separator", hstarted "format"]
    exact (h.2 n).append ((hoption _ _).append ((hoption _ _).append ((hoption _ _).append (.single _ _ _))))

/-- The code of branches, each without the jump at its end. -/
abbrev Branch.SameArms (arms arms' : List (List (Line String Code) × Option Span)) : Prop :=
  List.Forall₂ (fun arm arm' => Line.Same arm.1 arm'.1) arms arms'

namespace Branch.SameArms

variable {arms arms' : List (List (Line String Code) × Option Span)}

theorem join (h : SameArms arms arms') (exit : Nat) : Line.Same (Branch.join exit arms) (Branch.join exit arms') := by
  induction h with
  | nil => rfl
  | cons ha _ ih => exact (ha.append (.single _ _ _)).append ih

theorem sum_eq (h : SameArms arms arms') : (arms.map fun arm => arm.1.length + 1).foldr (· + ·) 0 =
    (arms'.map fun arm => arm.1.length + 1).foldr (· + ·) 0 := by
  induction h with
  | nil => rfl
  | cons ha _ ih => rw [List.map_cons, List.map_cons, List.foldr_cons, List.foldr_cons, ih, ha.length_eq]

end Branch.SameArms

section

variable (o o')

mutual

/-- As many templates without a name start, and the code is the same. -/
theorem Expr.Rephrased.lower : {mapped : Bool} → {e e' : Expr} → e.Rephrased .none mapped e' →
    e.started = e'.started ∧ ∀ n, Line.Same (e.lower o n) (e'.lower o' n)
  | _, _, _, .attribute _ _ _ | _, _, _, .literal _ _ _ | _, _, _, .truth _ _ _ => ⟨rfl, fun _ => .single _ _ _⟩
  | _, _, _, .list _ _ h => by
      obtain ⟨hs, hl⟩ := h.lower
      refine ⟨hs, fun n => ?_⟩
      rw [Expr.lower, Expr.lower, h.length_eq]
      exact (hl n).append (.single _ _ _)
  | _, _, _, .property _ _ _ h | _, _, _, .builtin _ _ _ h | _, _, _, .rendered _ _ h => by
      obtain ⟨hs, hl⟩ := h.lower
      exact ⟨hs, fun n => (hl n).append (.single _ _ _)⟩
  | _, _, _, .propertyAt _ _ h hk => by
      obtain ⟨hs, hl⟩ := h.lower
      obtain ⟨hs', hl'⟩ := hk.lower
      rw [Expr.started, Expr.started]
      refine ⟨congrArg₂ _ hs hs', fun n => ?_⟩
      rw [Expr.lower, Expr.lower, hs]
      exact (hl n).append ((hl' _).append (.single _ _ _))
  | _, _, _, .call callee _ _ h => by
      obtain ⟨hs, hp, hl⟩ := h.lower
      refine ⟨hs, fun n => ?_⟩
      rw [Expr.lower, Expr.lower, hp]
      exact (hl n).append (.single _ _ _)
  | _, _, _, .byName _ _ hn _ _ => hn.elim
  | _, _, _, .callComputed _ _ h has => by
      obtain ⟨hs, hl⟩ := h.lower
      obtain ⟨hs', hp, hl'⟩ := has.lower
      rw [Expr.started, Expr.started]
      refine ⟨congrArg₂ _ hs hs', fun n => ?_⟩
      rw [Expr.lower, Expr.lower, hs, hp]
      exact (hl n).append (.cons _ _ _ ((hl' _).append (.single _ _ _)))
  | _, _, _, .anonymous parameter _ _ h => by
      obtain ⟨hs, hl⟩ := h.lower
      refine ⟨congrArg (· + 1) hs, fun n => ?_⟩
      exact .createAnonymous _ _ _ _ (hl _ 0) _ _
  | _, _, _, .map _ _ h hes => by
      obtain ⟨hs, hl⟩ := h.lower
      obtain ⟨hs', hl'⟩ := hes.lower
      rw [Expr.started, Expr.started]
      refine ⟨congrArg₂ _ hs hs', fun n => ?_⟩
      rw [Expr.lower, Expr.lower, hs, hes.length_eq]
      exact (hl n).append ((hl' _).append (.single _ _ _))

theorem Expr.RephrasedAll.lower : {mapped : Bool} → {es es' : List Expr} → Expr.RephrasedAll .none mapped es es' →
    Expr.startedAll es = Expr.startedAll es' ∧ ∀ n, Line.Same (Expr.lowerAll o n es) (Expr.lowerAll o' n es')
  | _, _, _, .nil => ⟨rfl, fun _ => rfl⟩
  | _, _, _, .cons h hes => by
      obtain ⟨hs, hl⟩ := h.lower
      obtain ⟨hs', hl'⟩ := hes.lower
      rw [Expr.startedAll, Expr.startedAll]
      refine ⟨congrArg₂ _ hs hs', fun n => ?_⟩
      rw [Expr.lowerAll, Expr.lowerAll, hs]
      exact (hl n).append (hl' _)

theorem Arguments.Rephrased.lower : {as as' : Arguments} → as.Rephrased .none as' →
    as.started = as'.started ∧ as.passing = as'.passing ∧ ∀ n, Line.Same (as.lower o n) (as'.lower o' n)
  | _, _, .positional h =>
      have ⟨hs, hl⟩ := h.lower
      ⟨hs, congrArg Passing.positional h.length_eq, hl⟩
  | _, _, .named h =>
      have ⟨hs, hl⟩ := h.lower
      have hn := congrArg List.length h.names_eq
      ⟨hs, congrArg Passing.named (by rwa [List.length_map, List.length_map] at hn), hl⟩

theorem NamedArgument.RephrasedAll.lower : {as as' : List NamedArgument} → NamedArgument.RephrasedAll .none as as' →
    NamedArgument.startedAll as = NamedArgument.startedAll as' ∧
      ∀ n, Line.Same (NamedArgument.lowerAll o n as) (NamedArgument.lowerAll o' n as')
  | _, _, .nil => ⟨rfl, fun _ => rfl⟩
  | _, _, .cons _ _ _ h has => by
      obtain ⟨hs, hl⟩ := h.lower
      obtain ⟨hs', hl'⟩ := has.lower
      rw [NamedArgument.startedAll, NamedArgument.startedAll]
      refine ⟨congrArg₂ _ hs hs', fun n => ?_⟩
      rw [NamedArgument.lowerAll, NamedArgument.lowerAll, hs]
      exact .cons _ _ _ ((hl n).append (hl' _))

theorem TagOption.RephrasedAll.lower (wanted : String) :
    {os os' : List TagOption} → TagOption.RephrasedAll .none os os' →
    TagOption.started wanted os = TagOption.started wanted os' ∧
      ∀ n, Line.Same (TagOption.lower o n wanted os) (TagOption.lower o' n wanted os')
  | _, _, .nil => ⟨rfl, fun _ => rfl⟩
  | _, _, .cons _ _ _ h hos => by
      simp only [TagOption.started, TagOption.lower]
      split
      · exact h.lower
      · exact hos.lower wanted

theorem Condition.Rephrased.lower : {c c' : Condition} → c.Rephrased .none c' →
    c.started = c'.started ∧ ∀ n, Line.Same (c.lower o n) (c'.lower o' n)
  | _, _, .value h => by
      rw [Condition.started, Condition.started]
      exact h.lower
  | _, _, .not h => by
      obtain ⟨hs, hl⟩ := h.lower
      exact ⟨hs, fun n => (hl n).append (.single _ _ _)⟩
  | _, _, .and h h' | _, _, .or h h' => by
      obtain ⟨hs, hl⟩ := h.lower
      obtain ⟨hs', hl'⟩ := h'.lower
      rw [Condition.started, Condition.started]
      refine ⟨congrArg₂ _ hs hs', fun n => ?_⟩
      rw [Condition.lower, Condition.lower, hs]
      exact (hl n).append ((hl' _).append (.single _ _ _))

theorem Element.Rephrased.lower : {e e' : Element} → e.Rephrased .none e' →
    e.started = e'.started ∧ ∀ n start, Line.Same (e.lower o n start) (e'.lower o' n start)
  | _, _, .text _ => ⟨rfl, fun _ _ => .single _ _ _⟩
  | _, _, .tag s s' h hos hr => Element.lower_tag h.lower (fun wanted => hos.lower wanted) hos.names_eq hr s s'
  | _, _, .choice hbs => by
      obtain ⟨hs, hl⟩ := hbs.lower
      rw [Element.started, Element.started, hs]
      refine ⟨rfl, fun n start => ?_⟩
      rw [Element.lower, Element.lower]
      simp only [(hl n start).sum_eq, List.append_nil]
      exact (hl n start).join _
  | _, _, .choiceElse hbs hes => by
      obtain ⟨hs, hl⟩ := hbs.lower
      obtain ⟨hs', hl'⟩ := hes.lower
      rw [Element.started, Element.started, hs, hs']
      refine ⟨rfl, fun n start => ?_⟩
      rw [Element.lower, Element.lower]
      simp only [(hl n start).sum_eq, hs, (hl' _ _).length_eq]
      exact ((hl n start).join _).append (hl' _ _)

theorem Element.RephrasedAll.lower : {es es' : List Element} → Element.RephrasedAll .none es es' →
    Element.startedAll es = Element.startedAll es' ∧
      ∀ n start, Line.Same (Element.lowerAll o n start es) (Element.lowerAll o' n start es')
  | _, _, .nil => ⟨rfl, fun _ _ => rfl⟩
  | _, _, .cons h hes => by
      obtain ⟨hs, hl⟩ := h.lower
      obtain ⟨hs', hl'⟩ := hes.lower
      rw [Element.startedAll, Element.startedAll]
      refine ⟨congrArg₂ _ hs hs', fun n start => ?_⟩
      rw [Element.lowerAll, Element.lowerAll, hs, (hl n start).length_eq]
      exact (hl n start).append (hl' _ _)

theorem Branch.RephrasedAll.lower : {bs bs' : List Branch} → Branch.RephrasedAll .none bs bs' →
    Branch.startedAll bs = Branch.startedAll bs' ∧
      ∀ n start, Branch.SameArms (Branch.lowerAll o n start bs) (Branch.lowerAll o' n start bs')
  | _, _, .nil => ⟨rfl, fun _ _ => .nil⟩
  | _, _, .cons _ _ hc hes hbs => by
      obtain ⟨hs, hl⟩ := hc.lower
      obtain ⟨hs', hl'⟩ := hes.lower
      obtain ⟨hs'', hl''⟩ := hbs.lower
      rw [Branch.startedAll, Branch.startedAll, hs, hs', hs'']
      refine ⟨rfl, fun n start => ?_⟩
      rw [Branch.lowerAll, Branch.lowerAll]
      simp only [hs, hs', (hl n).length_eq, (hl' _ _).length_eq]
      exact .cons ((hl n).append (.cons _ _ _ (hl' _ _))) (hl'' _ _)

end

end

/-! ## Templates -/

theorem lowerDefaults_same (o o' : Origin) {ds ds' : List (String × Expr)}
    (h : List.Forall₂ (fun d d' => d.1 = d'.1 ∧ d.2.Rephrased .none false d'.2) ds ds') :
    (ds.map fun d => d.2.started).foldr (· + ·) 0 = (ds'.map fun d => d.2.started).foldr (· + ·) 0 ∧
      ∀ n start, Line.Same (lowerDefaults o n start ds) (lowerDefaults o' n start ds') := by
  induction h with
  | nil => exact ⟨rfl, fun _ _ => rfl⟩
  | @cons d d' ds ds' hd _ ih =>
    obtain ⟨name, e⟩ := d
    obtain ⟨name', e'⟩ := d'
    obtain ⟨rfl, hd⟩ : name = name' ∧ e.Rephrased .none false e' := hd
    obtain ⟨hs, hl⟩ := hd.lower o o'
    have hdefault (n start : Nat) : Line.Same (lowerDefault o n start name e) (lowerDefault o' n start name e') := by
      rw [lowerDefault, lowerDefault]
      simp only [(hl n).length_eq]
      exact .cons _ _ _ ((hl n).append (.single _ _ _))
    refine ⟨congrArg₂ (· + ·) hs ih.1, fun n start => ?_⟩
    rw [lowerDefaults, lowerDefaults, hs]
    simp only [(hdefault n start).length_eq]
    exact (hdefault n start).append (ih.2 _ _)

/-- The code of a template is the same but for its source if options stand in another order. -/
theorem Template.Rephrased.code {t t' : Template} (h : t.Rephrased .none t') (hn : t.name = t'.name)
    (ha : t.anonymous = t'.anonymous) (hb : t.before = t'.before) : t.code.bare = t'.code.bare := by
  have hformals : t.formals.bare = t'.formals.bare := by
    have hs := h.formals
    generalize t.formals = f, t'.formals = f' at hs
    cases f <;> cases f'
    · rfl
    · exact nomatch hs.isOpen
    · exact nomatch hs.isOpen
    · exact congrArg Formals.ofNames hs.names
  obtain ⟨hsum, hdefaults⟩ := lowerDefaults_same { t.origin with inDefault := true }
    { t'.origin with inDefault := true } h.defaults
  have hbody := (h.body.lower t.origin t'.origin).2
  have hlines : Line.Same t.lines t'.lines := by
    rw [Template.lines, Template.lines, Template.beforeBody, Template.beforeBody, hsum, hb]
    simp only [(hdefaults _ _).length_eq]
    exact (hdefaults _ _).append (hbody _ _)
  rw [Template.code, Template.code, Code.bare_assemble, Code.bare_assemble, hlines, hn, ha, hformals]

theorem Template.before_of_read {name source : String} {formals : Formals} {t : Template}
    (h : Template.read name formals source = .ok t) : t.before = 0 := by
  unfold Template.read at h
  split at h
  · cases h
  · dsimp only at h
    split at h
    · cases h
      rfl
    · cases h

/-- Sources that differ in the order of options compile to the same code but for the source that it comes from, or none
of them compiles. -/
theorem Program.of?_reordered {name source source' : String} {formals : Formals} {t t' : Template}
    (ht : Template.read name formals source = .ok t) (ht' : Template.read name formals source' = .ok t')
    (h : t.Rephrased .none t') (d : Directory) :
    Option.Rel (fun p p' => p.toCode.bare = p'.toCode.bare) (of? d name formals source)
      (of? d name formals source') := by
  have hcode := h.code ((Template.of_read ht).1.trans (Template.of_read ht').1.symm)
    ((Template.anonymous_of_read ht).trans (Template.anonymous_of_read ht').symm)
    ((Template.before_of_read ht).trans (Template.before_of_read ht').symm)
  refine rel_of_isSome (of?_rephrased ht ht' h (.refl d) fun _ _ hn => hn.elim) fun p p' hp hp' => ?_
  rw [← (Template.Gives.of_compile ht hp).code, ← (Template.Gives.of_compile ht' hp').code, hcode]

end Stencil
