import Mathlib.Data.List.Forall2
import Stencil.Proofs.Acceptance
/-! Trees in other words. What a call passes in order may be passed by name instead, the names in any order, and the
options of a tag may stand in any order. What compiles compiles in other words, too. -/

namespace Stencil

/-- What a callee may be passed by name: the parameters that are declared for it. -/
abbrev Naming := Callee → List String → Prop

/-- Options in another order. Those of one name keep theirs. -/
inductive TagOption.Reordered : List TagOption → List TagOption → Prop where
  | refl (os) : Reordered os os
  | cons (o) {os os'} : Reordered os os' → Reordered (o :: os) (o :: os')
  | swap {a b} (h : a.name ≠ b.name) (os) : Reordered (a :: b :: os) (b :: a :: os)
  | trans {os os' os''} : Reordered os os' → Reordered os' os'' → Reordered os os''

/-- Named arguments pass values by the first of some names, in any order. -/
def NamedArgument.Assign (names : List String) (values : List Expr) (as : List NamedArgument) : Prop :=
  values.length ≤ names.length ∧ (as.map fun a => (a.name, a.value)).Perm (names.zip values)

mutual

/-- Expressions in other words, wherever they stand in source. The arguments of calls that `N` has names for may be
passed by these, unless the call is mapped. -/
inductive Expr.Rephrased (N : Naming) : Bool → Expr → Expr → Prop where
  | attribute {mapped} (name s s') : Expr.Rephrased N mapped (.attribute name s) (.attribute name s')
  | literal {mapped} (text s s') : Expr.Rephrased N mapped (.literal text s) (.literal text s')
  | truth {mapped} (b s s') : Expr.Rephrased N mapped (.truth b s) (.truth b s')
  | list {mapped es es'} (s s') : Expr.RephrasedAll N false es es' → Expr.Rephrased N mapped (.list es s) (.list es' s')
  | property {mapped target target'} (name s s') : target.Rephrased N false target' →
      Expr.Rephrased N mapped (.property target name s) (.property target' name s')
  | propertyAt {mapped target target' key key'} (s s') : target.Rephrased N false target' →
      key.Rephrased N false key' → Expr.Rephrased N mapped (.propertyAt target key s) (.propertyAt target' key' s')
  | call {mapped as as'} (callee s s') : as.Rephrased N as' →
      Expr.Rephrased N mapped (.call callee as s) (.call callee as' s')
  | byName {callee names es es' as} (s s') : N callee names → Expr.RephrasedAll N false es es' →
      NamedArgument.Assign names es' as →
      Expr.Rephrased N false (.call callee (.positional es) s) (.call callee (.named as) s')
  | callComputed {mapped name name' as as'} (s s') : name.Rephrased N false name' → as.Rephrased N as' →
      Expr.Rephrased N mapped (.callComputed name as s) (.callComputed name' as' s')
  | rendered {mapped e e'} (s s') : e.Rephrased N false e' → Expr.Rephrased N mapped (.rendered e s) (.rendered e' s')
  | builtin {mapped e e'} (function s s') : e.Rephrased N false e' →
      Expr.Rephrased N mapped (.builtin function e s) (.builtin function e' s')
  | anonymous {mapped body body'} (parameter s s') : Element.RephrasedAll N body body' →
      Expr.Rephrased N mapped (.anonymous parameter body s) (.anonymous parameter body' s')
  | map {mapped target target' es es'} (s s') : target.Rephrased N false target' → Expr.RephrasedAll N true es es' →
      Expr.Rephrased N mapped (.map target es s) (.map target' es' s')

inductive Expr.RephrasedAll (N : Naming) : Bool → List Expr → List Expr → Prop where
  | nil {mapped} : Expr.RephrasedAll N mapped [] []
  | cons {mapped e e' es es'} : e.Rephrased N mapped e' → Expr.RephrasedAll N mapped es es' →
      Expr.RephrasedAll N mapped (e :: es) (e' :: es')

inductive Arguments.Rephrased (N : Naming) : Arguments → Arguments → Prop where
  | positional {es es'} : Expr.RephrasedAll N false es es' → Arguments.Rephrased N (.positional es) (.positional es')
  | named {as as'} : NamedArgument.RephrasedAll N as as' → Arguments.Rephrased N (.named as) (.named as')

inductive NamedArgument.RephrasedAll (N : Naming) : List NamedArgument → List NamedArgument → Prop where
  | nil : NamedArgument.RephrasedAll N [] []
  | cons {e e' as as'} (name s s') : e.Rephrased N false e' → NamedArgument.RephrasedAll N as as' →
      NamedArgument.RephrasedAll N (⟨name, e, s⟩ :: as) (⟨name, e', s'⟩ :: as')

inductive TagOption.RephrasedAll (N : Naming) : List TagOption → List TagOption → Prop where
  | nil : TagOption.RephrasedAll N [] []
  | cons {e e' os os'} (name s s') : e.Rephrased N false e' → TagOption.RephrasedAll N os os' →
      TagOption.RephrasedAll N (⟨name, e, s⟩ :: os) (⟨name, e', s'⟩ :: os')

inductive Condition.Rephrased (N : Naming) : Condition → Condition → Prop where
  | value {e e'} : e.Rephrased N false e' → Condition.Rephrased N (.value e) (.value e')
  | not {c c'} : c.Rephrased N c' → Condition.Rephrased N (.not c) (.not c')
  | and {a a' b b'} : a.Rephrased N a' → b.Rephrased N b' → Condition.Rephrased N (.and a b) (.and a' b')
  | or {a a' b b'} : a.Rephrased N a' → b.Rephrased N b' → Condition.Rephrased N (.or a b) (.or a' b')

inductive Element.Rephrased (N : Naming) : Element → Element → Prop where
  | text (s) : Element.Rephrased N (.text s) (.text s)
  | tag {e e' os os' os''} (s s') : e.Rephrased N false e' → TagOption.RephrasedAll N os os' →
      TagOption.Reordered os' os'' → Element.Rephrased N (.tag e os s) (.tag e' os'' s')
  | choice {bs bs'} : Branch.RephrasedAll N bs bs' → Element.Rephrased N (.choice bs none) (.choice bs' none)
  | choiceElse {bs bs' es es'} : Branch.RephrasedAll N bs bs' → Element.RephrasedAll N es es' →
      Element.Rephrased N (.choice bs (some es)) (.choice bs' (some es'))

inductive Element.RephrasedAll (N : Naming) : List Element → List Element → Prop where
  | nil : Element.RephrasedAll N [] []
  | cons {e e' es es'} : e.Rephrased N e' → Element.RephrasedAll N es es' → Element.RephrasedAll N (e :: es) (e' :: es')

inductive Branch.RephrasedAll (N : Naming) : List Branch → List Branch → Prop where
  | nil : Branch.RephrasedAll N [] []
  | cons {c c' es es' bs bs'} (s s') : c.Rephrased N c' → Element.RephrasedAll N es es' → Branch.RephrasedAll N bs bs' →
      Branch.RephrasedAll N (⟨c, es, s⟩ :: bs) (⟨c', es', s'⟩ :: bs')

end

variable {N : Naming}

mutual

/-- The same words. -/
theorem Expr.Rephrased.refl : (mapped : Bool) → (e : Expr) → e.Rephrased N mapped e
  | _, .attribute name s => .attribute name s s
  | _, .literal text s => .literal text s s
  | _, .truth b s => .truth b s s
  | _, .list es s => .list s s (Expr.RephrasedAll.refl _ es)
  | _, .property target name s => .property name s s (.refl _ target)
  | _, .propertyAt target key s => .propertyAt s s (.refl _ target) (.refl _ key)
  | _, .call callee as s => .call callee s s (.refl as)
  | _, .callComputed name as s => .callComputed s s (.refl _ name) (.refl as)
  | _, .rendered e s => .rendered s s (.refl _ e)
  | _, .builtin function e s => .builtin function s s (.refl _ e)
  | _, .anonymous parameter body s => .anonymous parameter s s (Element.RephrasedAll.refl body)
  | _, .map target es s => .map s s (.refl _ target) (Expr.RephrasedAll.refl _ es)

theorem Expr.RephrasedAll.refl : (mapped : Bool) → (es : List Expr) → Expr.RephrasedAll N mapped es es
  | _, [] => .nil
  | _, e :: es => .cons (.refl _ e) (Expr.RephrasedAll.refl _ es)

theorem Arguments.Rephrased.refl : (as : Arguments) → as.Rephrased N as
  | .positional es => .positional (.refl _ es)
  | .named as => .named (NamedArgument.RephrasedAll.refl as)

theorem NamedArgument.RephrasedAll.refl : (as : List NamedArgument) → NamedArgument.RephrasedAll N as as
  | [] => .nil
  | ⟨name, e, s⟩ :: as => .cons name s s (.refl _ e) (NamedArgument.RephrasedAll.refl as)

theorem TagOption.RephrasedAll.refl : (os : List TagOption) → TagOption.RephrasedAll N os os
  | [] => .nil
  | ⟨name, e, s⟩ :: os => .cons name s s (.refl _ e) (TagOption.RephrasedAll.refl os)

theorem Condition.Rephrased.refl : (c : Condition) → c.Rephrased N c
  | .value e => .value (.refl _ e)
  | .not c => .not (.refl c)
  | .and a b => .and (.refl a) (.refl b)
  | .or a b => .or (.refl a) (.refl b)

theorem Element.Rephrased.refl : (e : Element) → e.Rephrased N e
  | .text s => .text s
  | .tag e os s => .tag s s (.refl _ e) (TagOption.RephrasedAll.refl os) (.refl os)
  | .choice bs none => .choice (Branch.RephrasedAll.refl bs)
  | .choice bs (some es) => .choiceElse (Branch.RephrasedAll.refl bs) (Element.RephrasedAll.refl es)

theorem Element.RephrasedAll.refl : (es : List Element) → Element.RephrasedAll N es es
  | [] => .nil
  | e :: es => .cons (.refl e) (Element.RephrasedAll.refl es)

theorem Branch.RephrasedAll.refl : (bs : List Branch) → Branch.RephrasedAll N bs bs
  | [] => .nil
  | ⟨c, es, s⟩ :: bs => .cons s s (.refl c) (Element.RephrasedAll.refl es) (Branch.RephrasedAll.refl bs)

end

/-! ## Parameters -/

/-- The same parameters, which may have other defaults. -/
structure Formals.Same (f f' : Formals) : Prop where
  isOpen : f.isOpen = f'.isOpen
  names : f.parameters.map Parameter.name = f'.parameters.map Parameter.name

namespace Formals.Same

variable {f f' : Formals}

theorem refl (f : Formals) : f.Same f := ⟨rfl, rfl⟩

theorem size (h : f.Same f') : f.size = f'.size := by
  rw [Formals.size, Formals.size, ← List.length_map Parameter.name, h.names, List.length_map]

theorem knows (h : f.Same f') (name : String) : f.Knows name ↔ f'.Knows name := by
  have hn (f : Formals) : (∃ p ∈ f.parameters, p.name = name) ↔ name ∈ f.parameters.map Parameter.name :=
    List.mem_map.symm
  rw [Formals.Knows, Formals.Knows, hn, hn, h.isOpen, h.names]

theorem accepts (h : f.Same f') (name : String) : f.accepts name = f'.accepts name := by
  rw [Bool.eq_iff_iff, Formals.accepts_iff, Formals.accepts_iff, h.knows]

theorem parameters_nil (h : f.Same f') : f.parameters = [] ↔ f'.parameters = [] := by
  rw [← List.map_eq_nil_iff (f := Parameter.name), h.names, List.map_eq_nil_iff]

theorem receiver? (h : f.Same f') : f.receiver? = f'.receiver? := by
  have hn := h.names
  cases f with
  | any =>
    cases f' with
    | any => rfl
    | declared => exact nomatch h.isOpen
  | declared ps =>
    cases f' with
    | any => exact nomatch h.isOpen
    | declared ps' =>
      have hh := congrArg List.head? hn
      rwa [List.head?_map, List.head?_map] at hh

end Formals.Same

/-- A template in other words: its parameters have the same names, and defaults and body are in other words. -/
structure Template.Rephrased (N : Naming) (t t' : Template) : Prop where
  formals : t.formals.Same t'.formals
  defaults : List.Forall₂ (fun d d' => d.1 = d'.1 ∧ d.2.Rephrased N false d'.2) t.defaults t'.defaults
  body : Element.RephrasedAll N t.body t'.body

theorem Template.Rephrased.refl (t : Template) : t.Rephrased N t :=
  ⟨.refl _, List.forall₂_same.mpr fun d _ => ⟨rfl, .refl _ d.2⟩, .refl _⟩

/-! ## What is found in them -/

/-- Directories of the same callees, with the same parameters. -/
def Directory.Same (d d' : Directory) : Prop := ∀ callee, Option.Rel Formals.Same (d.find? callee) (d'.find? callee)

theorem Directory.Same.refl (d : Directory) : d.Same d := fun callee => by
  cases d.find? callee with
  | none => exact .none
  | some formals => exact .some (.refl formals)

/-- A callee is declared with these parameters, which are different. -/
def Directory.Takes (d : Directory) : Naming := fun callee names =>
  names.Nodup ∧ ∃ ps, d.find? callee = some (.declared ps) ∧ ps.map Parameter.name = names

/-- Scopes of the same names. -/
structure Scope.Same (s s' : Scope) : Prop where
  directory : s.directory.Same s'.directory
  accepts : ∀ name, s.accepts name = s'.accepts name

theorem Scope.Same.enter {s s' : Scope} (h : s.Same s') (formals : Formals) :
    (s.enter formals).Same (s'.enter formals) where
  directory := h.directory
  accepts name := by
    have ha := h.accepts name
    rw [Scope.accepts, Scope.accepts] at ha ⊢
    rw [Scope.enter, Scope.enter, List.any_append, List.any_append, ha]

/-- What is zipped with fewer values is left of a list. -/
theorem zip_fst_of_le {α β : Type} {as : List α} {bs : List β} (h : bs.length ≤ as.length) :
    (as.zip bs).map Prod.fst = as.take bs.length := by
  rw [List.zip_eq_zip_take_min, Nat.min_eq_right h, List.take_length, List.map_fst_zip (List.length_take_le _ _)]

/-- What is passed by name in another order has the same names and values. -/
theorem NamedArgument.Assign.names {names : List String} {values : List Expr} {as : List NamedArgument}
    (h : Assign names values as) : (as.map NamedArgument.name).Perm (names.take values.length) := by
  have hm := h.2.map Prod.fst
  rwa [List.map_map, zip_fst_of_le h.1] at hm

theorem NamedArgument.Assign.values {names : List String} {values : List Expr} {as : List NamedArgument}
    (h : Assign names values as) : (as.map NamedArgument.value).Perm values := by
  have hm := h.2.map Prod.snd
  rw [List.map_map, List.map_snd_zip h.1] at hm
  exact hm

namespace TagOption.Reordered

variable {os os' : List TagOption}

theorem perm (h : Reordered os os') : os.Perm os' := by
  induction h with
  | refl => exact .refl _
  | cons o _ ih => exact ih.cons o
  | swap _ os => exact .swap _ _ os
  | trans _ _ ih ih' => exact ih.trans ih'

/-- Options of different names may stand in any order. -/
theorem of_perm (hp : os.Perm os') (hn : (os.map TagOption.name).Nodup) : Reordered os os' := by
  induction hp with
  | nil => exact .refl _
  | cons o _ ih => exact .cons o (ih (List.nodup_cons.mp hn).2)
  | swap a b os =>
    refine .swap (fun h => (List.nodup_cons.mp hn).1 ?_) os
    rw [h]
    exact List.mem_cons_self
  | trans hp _ ih ih' => exact (ih hn).trans (ih' ((hp.map _).nodup_iff.mp hn))

/-- The first option of a name is the same. -/
theorem find?_eq (h : Reordered os os') (wanted : String) :
    os.find? (fun o => o.name == wanted) = os'.find? fun o => o.name == wanted := by
  induction h with
  | refl => rfl
  | cons o _ ih => rw [List.find?_cons, List.find?_cons, ih]
  | @swap a b hne os =>
    by_cases ha : a.name = wanted
    · have hb : b.name ≠ wanted := fun hb => hne (ha.trans hb.symm)
      simp [ha, hb]
    · simp [List.find?_cons, ha]
  | trans _ _ ih ih' => exact ih.trans ih'

end TagOption.Reordered

theorem Expr.RephrasedAll.length_eq {mapped : Bool} {es es' : List Expr} (h : Expr.RephrasedAll N mapped es es') :
    es.length = es'.length := by
  induction es generalizing es' with
  | nil => cases h; rfl
  | cons e es ih =>
    cases h with
    | cons _ hes => exact congrArg (· + 1) (ih hes)

theorem NamedArgument.RephrasedAll.names_eq {as as' : List NamedArgument} (h : NamedArgument.RephrasedAll N as as') :
    as.map NamedArgument.name = as'.map NamedArgument.name := by
  induction as generalizing as' with
  | nil => cases h; rfl
  | cons a as ih =>
    cases h with
    | cons name _ _ _ has => exact congrArg (name :: ·) (ih has)

theorem TagOption.RephrasedAll.names_eq {os os' : List TagOption} (h : TagOption.RephrasedAll N os os') :
    os.map TagOption.name = os'.map TagOption.name := by
  induction os generalizing os' with
  | nil => cases h; rfl
  | cons o os ih =>
    cases h with
    | cons name _ _ _ hos => exact congrArg (name :: ·) (ih hos)

/-- As many values are passed in order. -/
theorem Arguments.Rephrased.passed_eq {as as' : Arguments} (h : as.Rephrased N as') : as.passed = as'.passed := by
  cases h with
  | positional h => exact h.length_eq
  | named => rfl

theorem Arguments.Rephrased.names_eq {as as' : Arguments} (h : as.Rephrased N as') : as.names = as'.names := by
  cases h with
  | positional => rfl
  | named h => exact h.names_eq

section

variable {s s' : Scope} (hs : s.Same s')
include hs

/-- Nothing is wrong with a call itself if nothing is with one that passes as many values in order. -/
theorem callFindings_same {mapped : Bool} {as as' : Arguments} (hn : as.passed = as'.passed) (callee : Callee)
    (span span' : Span) : callFindings s.directory mapped callee as span = [] ↔
      callFindings s'.directory mapped callee as' span' = [] := by
  have hf := hs.directory callee
  rw [callFindings_eq_nil, callFindings_eq_nil, hn]
  generalize s.directory.find? callee = o, s'.directory.find? callee = o' at hf
  cases hf with
  | none => simp
  | some h => simp only [Option.some.injEq, exists_eq_left', h.size, h.isOpen, ne_eq, h.parameters_nil]

/-- Names that a callee knows are those that it knows with the same parameters. -/
theorem knows_same (callee : Callee) (names : List String) :
    (∀ n ∈ names, ∀ c ∈ (s.directory.find? callee).map fun f => (callee.name, f), c.2.Knows n) ↔
      ∀ n ∈ names, ∀ c ∈ (s'.directory.find? callee).map fun f => (callee.name, f), c.2.Knows n := by
  have hf := hs.directory callee
  generalize s.directory.find? callee = o, s'.directory.find? callee = o' at hf
  cases hf with
  | none => rfl
  | some h => simp [h.knows]

end

theorem callComputed_findings (s : Scope) (mapped : Bool) (name : Expr) (as : Arguments) (span : Span) :
    (Expr.callComputed name as span).findings s mapped = [] ↔ (mapped = true → as.passed = 0) ∧
      name.findings s false = [] ∧ as.names.Nodup ∧ ∀ e ∈ as.values, e.findings s false = [] := by
  cases as <;> simp [Expr.findings, Arguments.findings_eq_nil, Arguments.passed]

/-- The calls that may be rephrased take the parameters that their directory has for them. -/
def Naming.Fits (N : Naming) (d : Directory) : Prop := ∀ callee names, N callee names → d.Takes callee names

/-- A call is fit to pass values by names that its callee takes, as it is to pass them in order. -/
theorem byName_findings {s s' : Scope} (hs : s.Same s') {callee : Callee} {names : List String}
    (hn : s.directory.Takes callee names) {es es' : List Expr} (hl : es.length = es'.length) {as : List NamedArgument}
    (ha : NamedArgument.Assign names es' as) (span span' : Span) :
    ((Expr.call callee (.positional es) span).findings s false = [] ↔ ∀ e ∈ es, e.findings s false = []) ∧
      ((Expr.call callee (.named as) span').findings s' false = [] ↔ ∀ e ∈ es', e.findings s' false = []) := by
  obtain ⟨hnodup, ps, hps, rfl⟩ := hn
  have hsize : es'.length ≤ ps.length := Nat.le_trans ha.1 (Nat.le_of_eq (List.length_map _))
  have hleft : callFindings s.directory false callee (.positional es) span = [] :=
    callFindings_eq_nil.mpr ⟨_, hps, fun _ => Nat.le_trans (Nat.le_of_eq hl) hsize, nofun⟩
  have hright : callFindings s'.directory false callee (.named as) span' = [] :=
    (callFindings_same hs rfl callee span span').mp
      (callFindings_eq_nil.mpr ⟨_, hps, fun _ => Nat.zero_le _, nofun⟩)
  have hdistinct : (as.map NamedArgument.name).Nodup :=
    ha.names.nodup_iff.mpr (hnodup.sublist (List.take_sublist _ _))
  have hknown : ∀ n ∈ as.map NamedArgument.name, ∀ c ∈ (s.directory.find? callee).map fun f => (callee.name, f),
      c.2.Knows n := by
    intro n hn c hc
    rw [hps] at hc
    cases hc
    exact .inr (.inr (List.mem_map.mp (List.mem_of_mem_take (ha.names.mem_iff.mp hn))))
  constructor
  · rw [Expr.findings, hleft, List.nil_append, Arguments.findings_eq_nil]
    exact and_iff_right ⟨List.nodup_nil, List.forall_mem_nil _⟩
  · rw [Expr.findings, hright, List.nil_append, Arguments.findings_eq_nil]
    refine (and_iff_right ⟨hdistinct, (knows_same hs callee _).mp hknown⟩).trans ?_
    exact forall_congr' fun e => imp_congr_left ha.values.mem_iff

mutual

/-- Nothing is wrong with an expression if nothing is with it in other words. -/
theorem Expr.Rephrased.findings {s s' : Scope} (hs : s.Same s') (hN : N.Fits s.directory) : {mapped : Bool} →
    {e e' : Expr} → e.Rephrased N mapped e' → (e.findings s mapped = [] ↔ e'.findings s' mapped = [])
  | _, _, _, .attribute name _ _ => by simp [Expr.findings, hs.accepts name]
  | _, _, _, .literal _ _ _ | _, _, _, .truth _ _ _ => Iff.rfl
  | _, _, _, .list _ _ h => by
      rw [Expr.findings, Expr.findings]
      exact h.findings hs hN
  | _, _, _, .property _ _ _ h | _, _, _, .rendered _ _ h | _, _, _, .builtin _ _ _ h => by
      rw [Expr.findings, Expr.findings]
      exact h.findings hs hN
  | _, _, _, .propertyAt _ _ h hk => by
      rw [Expr.findings, Expr.findings, List.append_eq_nil_iff, List.append_eq_nil_iff, h.findings hs hN,
        hk.findings hs hN]
  | _, _, _, .call callee span span' h => by
      rw [Expr.findings, Expr.findings, List.append_eq_nil_iff, List.append_eq_nil_iff,
        callFindings_same hs h.passed_eq callee span span', Arguments.findings_eq_nil, Arguments.findings_eq_nil,
        h.names_eq, knows_same hs, h.values_findings hs hN]
  | _, _, _, .byName span span' hn h ha => by
      obtain ⟨hleft, hright⟩ := byName_findings hs (hN _ _ hn) h.length_eq ha span span'
      rw [hleft, hright, ← Expr.findingsAll_eq_nil, ← Expr.findingsAll_eq_nil, h.findings hs hN]
  | _, _, _, .callComputed _ _ h has => by
      rw [callComputed_findings, callComputed_findings, h.findings hs hN, has.values_findings hs hN, has.passed_eq,
        has.names_eq]
  | _, _, _, .anonymous parameter _ _ h => by
      rw [Expr.findings, Expr.findings]
      exact h.findings (hs.enter _) hN
  | _, _, _, .map _ _ h hes => by
      rw [Expr.findings, Expr.findings, List.append_eq_nil_iff, List.append_eq_nil_iff, h.findings hs hN,
        hes.findings hs hN]

theorem Expr.RephrasedAll.findings {s s' : Scope} (hs : s.Same s') (hN : N.Fits s.directory) : {mapped : Bool} →
    {es es' : List Expr} → Expr.RephrasedAll N mapped es es' →
    (Expr.findingsAll s mapped es = [] ↔ Expr.findingsAll s' mapped es' = [])
  | _, _, _, .nil => Iff.rfl
  | _, _, _, .cons h hes => by
      rw [Expr.findingsAll, Expr.findingsAll, List.append_eq_nil_iff, List.append_eq_nil_iff, h.findings hs hN,
        hes.findings hs hN]

theorem Arguments.Rephrased.values_findings {s s' : Scope} (hs : s.Same s') (hN : N.Fits s.directory) :
    {as as' : Arguments} → as.Rephrased N as' →
    ((∀ e ∈ as.values, e.findings s false = []) ↔ ∀ e ∈ as'.values, e.findings s' false = [])
  | _, _, .positional h => by
      rw [Arguments.values, Arguments.values, ← Expr.findingsAll_eq_nil, ← Expr.findingsAll_eq_nil]
      exact h.findings hs hN
  | _, _, .named h => h.values_findings hs hN

theorem NamedArgument.RephrasedAll.values_findings {s s' : Scope} (hs : s.Same s') (hN : N.Fits s.directory) :
    {as as' : List NamedArgument} → NamedArgument.RephrasedAll N as as' →
    ((∀ e ∈ as.map NamedArgument.value, e.findings s false = []) ↔
      ∀ e ∈ as'.map NamedArgument.value, e.findings s' false = [])
  | _, _, .nil => by simp
  | _, _, .cons _ _ _ h has => by
      rw [List.map_cons, List.map_cons, List.forall_mem_cons, List.forall_mem_cons, h.findings hs hN,
        has.values_findings hs hN]

theorem TagOption.RephrasedAll.values_findings {s s' : Scope} (hs : s.Same s') (hN : N.Fits s.directory) :
    {os os' : List TagOption} → TagOption.RephrasedAll N os os' →
    ((∀ o ∈ os, o.value.findings s false = []) ↔ ∀ o ∈ os', o.value.findings s' false = [])
  | _, _, .nil => by simp
  | _, _, .cons _ _ _ h hos => by
      rw [List.forall_mem_cons, List.forall_mem_cons, h.findings hs hN, hos.values_findings hs hN]

theorem Condition.Rephrased.findings {s s' : Scope} (hs : s.Same s') (hN : N.Fits s.directory) :
    {c c' : Condition} → c.Rephrased N c' → (c.findings s = [] ↔ c'.findings s' = [])
  | _, _, .value h => by
      rw [Condition.findings, Condition.findings]
      exact h.findings hs hN
  | _, _, .not h => by
      rw [Condition.findings, Condition.findings]
      exact h.findings hs hN
  | _, _, .and h h' | _, _, .or h h' => by
      rw [Condition.findings, Condition.findings, List.append_eq_nil_iff, List.append_eq_nil_iff, h.findings hs hN,
        h'.findings hs hN]

theorem Element.Rephrased.findings {s s' : Scope} (hs : s.Same s') (hN : N.Fits s.directory) :
    {e e' : Element} → e.Rephrased N e' → (e.findings s = [] ↔ e'.findings s' = [])
  | _, _, .text _ => Iff.rfl
  | _, _, .tag _ _ h hos hr => by
      have hnames := hr.perm.map TagOption.name
      rw [← hos.names_eq] at hnames
      have hallowed (os : List TagOption) : (∀ o ∈ os, o.name ∈ TagOption.allowed) ↔
          ∀ n ∈ os.map TagOption.name, n ∈ TagOption.allowed := List.forall_mem_map.symm
      rw [Element.tag_findings_eq_nil, Element.tag_findings_eq_nil, h.findings hs hN, hos.values_findings hs hN,
        hallowed, hallowed]
      simp only [hnames.nodup_iff, hnames.mem_iff, hr.perm.mem_iff]
  | _, _, .choice hbs => by
      rw [Element.findings, Element.findings, List.append_eq_nil_iff, List.append_eq_nil_iff, hbs.findings hs hN]
  | _, _, .choiceElse hbs hes => by
      rw [Element.findings, Element.findings, List.append_eq_nil_iff, List.append_eq_nil_iff, hbs.findings hs hN,
        hes.findings hs hN]

theorem Element.RephrasedAll.findings {s s' : Scope} (hs : s.Same s') (hN : N.Fits s.directory) :
    {es es' : List Element} → Element.RephrasedAll N es es' →
    (Element.findingsAll s es = [] ↔ Element.findingsAll s' es' = [])
  | _, _, .nil => Iff.rfl
  | _, _, .cons h hes => by
      rw [Element.findingsAll, Element.findingsAll, List.append_eq_nil_iff, List.append_eq_nil_iff, h.findings hs hN,
        hes.findings hs hN]

theorem Branch.RephrasedAll.findings {s s' : Scope} (hs : s.Same s') (hN : N.Fits s.directory) :
    {bs bs' : List Branch} → Branch.RephrasedAll N bs bs' →
    (Branch.findingsAll s bs = [] ↔ Branch.findingsAll s' bs' = [])
  | _, _, .nil => Iff.rfl
  | _, _, .cons _ _ hc hes hbs => by
      rw [Branch.findingsAll, Branch.findingsAll, List.append_eq_nil_iff, List.append_eq_nil_iff,
        List.append_eq_nil_iff, List.append_eq_nil_iff, hc.findings hs hN, hes.findings hs hN, hbs.findings hs hN]

end

/-- There are no problems with a template if there are none with it in other words. -/
theorem Template.Rephrased.problems {t t' : Template} (h : t.Rephrased N t') {d d' : Directory} (hd : d.Same d')
    (hN : N.Fits d) : t.problems d = [] ↔ t'.problems d' = [] := by
  have hs : Scope.Same ⟨d, [t.formals]⟩ ⟨d', [t'.formals]⟩ :=
    ⟨hd, fun name => by simp [Scope.accepts, h.formals.accepts]⟩
  have hdefaults : (∀ e ∈ t.defaults, e.2.findings ⟨d, [t.formals]⟩ false = []) ↔
      ∀ e ∈ t'.defaults, e.2.findings ⟨d', [t'.formals]⟩ false = [] := by
    have hds := h.defaults
    generalize t.defaults = ds, t'.defaults = ds' at hds
    induction hds with
    | nil => simp
    | cons hd _ ih =>
      rw [List.forall_mem_cons, List.forall_mem_cons]
      exact and_congr (hd.2.findings hs hN) ih
  simp only [Template.problems, List.append_eq_nil_iff, List.flatMap_eq_nil_iff, List.map_eq_nil_iff, hdefaults,
    h.body.findings hs hN]

namespace Program

variable {d d' : Directory} {name source source' : String} {formals formals' : Formals} {t t' : Template}

/-- Either both compile or none does. -/
theorem of?_rephrased (ht : Template.read name formals source = .ok t)
    (ht' : Template.read name formals' source' = .ok t') (h : t.Rephrased N t') (hd : d.Same d') (hN : N.Fits d) :
    (of? d name formals source).isSome = (of? d' name formals' source').isSome := by
  have hp := h.problems hd hN
  rw [of?, of?, compile_read ht, compile_read ht']
  cases hn : t.problems d with
  | nil =>
    rw [hp.mp hn]
    rfl
  | cons f fs =>
    cases hn' : t'.problems d' with
    | nil => cases hn.symm.trans (hp.mpr hn')
    | cons => rfl

end Program

end Stencil
