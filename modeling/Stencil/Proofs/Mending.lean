import Stencil.Proofs.Fitting
import Stencil.Proofs.Imports
/-! How compiling depends on what a template may call. The program does not. Further templates let a
template go on compiling, and what none of them can mend fails for ever. -/

namespace Stencil

/-- Whether a further definition could mend a problem. -/
def Kind.isMendable : Kind → Bool
  | .noSuchTemplate | .noSuchFormalArgument | .argumentCountMismatch | .mapTemplateWithoutParameters => true
  | _ => false

theorem CompileError.isMendable_eq (e : CompileError) :
    e.isMendable = e.diagnostics.any fun d => d.kind.isMendable := by
  unfold CompileError.isMendable
  congr 1

/-- A directory that knows more than another one, and nothing else of what that knows. -/
def Directory.Grows (d d' : Directory) : Prop :=
  ∀ callee formals, d.find? callee = some formals → d'.find? callee = some formals

/-- The same scope among other templates. -/
def Scope.amid (s : Scope) (d : Directory) : Scope := { s with directory := d }

/-- What is found in two directories: where nothing is found there is nothing in one that grew, if that
one did, and where something lasting is found there is something in any. -/
structure Bears (grew : Prop) (l l' : List Finding) : Prop where
  clear : grew → l = [] → l' = []
  lasting : ∀ f ∈ l, f.problem.kind.isMendable = false → l' ≠ []

namespace Bears

variable {grew : Prop} {l l' k k' : List Finding}

theorem refl (l : List Finding) : Bears grew l l := ⟨fun _ h => h, fun _ hf _ => List.ne_nil_of_mem hf⟩

/-- The second lists may bear less, as long as nothing is found in the first. -/
theorem before {grew' : Prop} (h : Bears grew l l') (h' : Bears grew' k k') (hg : grew → l = [] → grew') :
    Bears grew (l ++ k) (l' ++ k') where
  clear hgrew hl := by
    obtain ⟨hl, hk⟩ := List.append_eq_nil_iff.mp hl
    rw [h.clear hgrew hl, h'.clear (hg hgrew hl) hk, List.append_nil]
  lasting f hf hm hn := by
    obtain ⟨hl, hk⟩ := List.append_eq_nil_iff.mp hn
    rcases List.mem_append.mp hf with hf | hf
    · exact h.lasting f hf hm hl
    · exact h'.lasting f hf hm hk

theorem append (h : Bears grew l l') (h' : Bears grew k k') : Bears grew (l ++ k) (l' ++ k') :=
  h.before h' fun hg _ => hg

end Bears

/-- The values that a call passes by their positions. -/
def Arguments.passed : Arguments → Nat
  | .positional values => values.length
  | .named _ => 0

theorem callFindings_some {d : Directory} {mapped : Bool} {callee : Callee} {arguments : Arguments} {span : Span}
    {formals : Formals} (h : d.find? callee = some formals) :
    callFindings d mapped callee arguments span =
      if mapped then
        (if arguments.passed = 0 then [] else [⟨.positionalMapArguments callee.name, span⟩]) ++
          (if formals.isOpen || formals.size ≠ 0 then [] else [⟨.noReceiver callee.name, span⟩])
      else if arguments.passed > formals.size then
        [⟨.tooManyArguments arguments.passed callee.name formals.size, span⟩]
      else [] := by
  unfold callFindings
  rw [h]
  cases arguments <;> rfl

/-- What is found in a call itself. -/
theorem callFindings_bears (d d' : Directory) (mapped : Bool) (callee : Callee) (arguments : Arguments)
    (span : Span) : Bears (d.Grows d') (callFindings d mapped callee arguments span)
      (callFindings d' mapped callee arguments span) := by
  constructor
  · intro hg hn
    unfold callFindings at hn ⊢
    cases hd : d.find? callee with
    | none =>
      rw [hd] at hn
      cases hn
    | some formals =>
      rw [hd] at hn
      rw [hg callee formals hd]
      exact hn
  · intro f hf hm
    cases hd' : d'.find? callee with
    | none =>
      unfold callFindings
      rw [hd']
      exact List.cons_ne_nil _ _
    | some formals' =>
      cases hd : d.find? callee with
      | none =>
        unfold callFindings at hf
        rw [hd] at hf
        cases List.mem_singleton.mp hf
        cases hm
      | some formals =>
        rw [callFindings_some hd] at hf
        rw [callFindings_some hd']
        cases mapped with
        | false =>
          rw [if_neg Bool.false_ne_true] at hf
          split at hf
          · cases List.mem_singleton.mp hf
            cases hm
          · cases hf
        | true =>
          rw [if_pos rfl] at hf ⊢
          rcases List.mem_append.mp hf with hf | hf
          · split at hf
            · cases hf
            · rw [if_neg ‹_›]
              exact List.cons_ne_nil _ _
          · split at hf
            · cases hf
            · cases List.mem_singleton.mp hf
              cases hm

/-- What is found in the name of an argument. -/
def NamedArgument.nameFindings (callee : Option (String × Formals)) (seen : List String) (name : String)
    (span : Span) : List Finding :=
  if seen.contains name then [⟨.duplicateArgument name ((callee.map Prod.fst).getD ""), span⟩]
  else match callee with
    | some (template, formals) =>
      if formals.accepts name then [] else [⟨.noSuchParameter template name, span⟩]
    | none => []

theorem NamedArgument.name_bears {grew : Prop} {callee callee' : Option (String × Formals)}
    (h : grew → callee = callee') (seen : List String) (name : String) (span : Span) :
    Bears grew (nameFindings callee seen name span) (nameFindings callee' seen name span) where
  clear hg hn := h hg ▸ hn
  lasting f hf hm := by
    unfold nameFindings at hf ⊢
    split at hf
    · rw [if_pos ‹_›]
      exact List.cons_ne_nil _ _
    · split at hf
      · split at hf
        · cases hf
        · cases List.mem_singleton.mp hf
          cases hm
      · cases hf

theorem NamedArgument.findingsAll_cons (s : Scope) (callee : Option (String × Formals)) (seen : List String)
    (name : String) (value : Expr) (span : Span) (rest : List NamedArgument) :
    NamedArgument.findingsAll s callee seen (⟨name, value, span⟩ :: rest) =
      nameFindings callee seen name span ++ value.findings s false ++
        NamedArgument.findingsAll s callee (name :: seen) rest := by
  cases callee <;> rfl

mutual

theorem Expr.bears (s : Scope) (d : Directory) (mapped : Bool) : (e : Expr) →
    Bears (s.directory.Grows d) (e.findings s mapped) (e.findings (s.amid d) mapped)
  | .attribute name span => by
      rw [Expr.findings, Expr.findings]
      exact .refl _
  | .literal _ _ | .truth _ _ => .refl _
  | .list items _ => by
      rw [Expr.findings, Expr.findings]
      exact Expr.bearsAll s d false items
  | .property target _ _ => by
      rw [Expr.findings, Expr.findings]
      exact target.bears s d false
  | .propertyAt target key _ => by
      rw [Expr.findings, Expr.findings]
      exact (target.bears s d false).append (key.bears s d false)
  | .call callee arguments span => by
      rw [Expr.findings, Expr.findings]
      refine (callFindings_bears s.directory d mapped callee arguments span).before
        (arguments.bears s d _ _) fun hg hn => ⟨hg, ?_⟩
      obtain ⟨formals, hf, -⟩ := callFindings_nil hn
      change _ = (d.find? callee).map _
      rw [hf, hg callee formals hf]
  | .callComputed name arguments span => by
      simp only [Expr.findings]
      exact (Bears.append (.refl _) (name.bears s d false)).before (arguments.bears s d none none)
        fun hg _ => ⟨hg, rfl⟩
  | .rendered value _ => by
      rw [Expr.findings, Expr.findings]
      exact value.bears s d false
  | .builtin _ argument _ => by
      rw [Expr.findings, Expr.findings]
      exact argument.bears s d false
  | .anonymous parameter body _ => by
      rw [Expr.findings, Expr.findings]
      exact Element.bearsAll (s.enter _) d body
  | .map target templates _ => by
      rw [Expr.findings, Expr.findings]
      exact (target.bears s d false).append (Expr.bearsAll s d true templates)

theorem Expr.bearsAll (s : Scope) (d : Directory) (mapped : Bool) : (es : List Expr) →
    Bears (s.directory.Grows d) (Expr.findingsAll s mapped es) (Expr.findingsAll (s.amid d) mapped es)
  | [] => .refl _
  | e :: rest => by
      rw [Expr.findingsAll, Expr.findingsAll]
      exact (e.bears s d mapped).append (Expr.bearsAll s d mapped rest)

theorem Arguments.bears (s : Scope) (d : Directory) (callee callee' : Option (String × Formals)) :
    (a : Arguments) → Bears (s.directory.Grows d ∧ callee = callee') (a.findings s callee)
      (a.findings (s.amid d) callee')
  | .positional values => by
      rw [Arguments.findings, Arguments.findings]
      have h := Expr.bearsAll s d false values
      exact ⟨fun hg => h.clear hg.1, h.lasting⟩
  | .named values => by
      rw [Arguments.findings, Arguments.findings]
      exact NamedArgument.bearsAll s d callee callee' [] values

theorem NamedArgument.bearsAll (s : Scope) (d : Directory) (callee callee' : Option (String × Formals))
    (seen : List String) : (as : List NamedArgument) → Bears (s.directory.Grows d ∧ callee = callee')
      (NamedArgument.findingsAll s callee seen as) (NamedArgument.findingsAll (s.amid d) callee' seen as)
  | [] => .refl _
  | ⟨name, value, span⟩ :: rest => by
      rw [NamedArgument.findingsAll_cons, NamedArgument.findingsAll_cons]
      have hv := value.bears s d false
      exact ((NamedArgument.name_bears And.right seen name span).before hv fun hg _ => hg.1).append
        (NamedArgument.bearsAll s d callee callee' (name :: seen) rest)

theorem TagOption.bears (s : Scope) (d : Directory) (wanted : String) : (os : List TagOption) →
    Bears (s.directory.Grows d) (TagOption.valueFindings s wanted os)
      (TagOption.valueFindings (s.amid d) wanted os)
  | [] => .refl _
  | ⟨name, value, _⟩ :: rest => by
      rw [TagOption.valueFindings, TagOption.valueFindings]
      split
      · exact value.bears s d false
      · exact TagOption.bears s d wanted rest

theorem Condition.bears (s : Scope) (d : Directory) : (c : Condition) →
    Bears (s.directory.Grows d) (c.findings s) (c.findings (s.amid d))
  | .value e => by
      rw [Condition.findings, Condition.findings]
      exact e.bears s d false
  | .not c => by
      rw [Condition.findings, Condition.findings]
      exact c.bears s d
  | .and a b | .or a b => by
      rw [Condition.findings, Condition.findings]
      exact (a.bears s d).append (b.bears s d)

theorem Element.bears (s : Scope) (d : Directory) : (e : Element) →
    Bears (s.directory.Grows d) (e.findings s) (e.findings (s.amid d))
  | .text _ => .refl _
  | .tag value options _ => by
      rw [Element.findings, Element.findings]
      exact ((((value.bears s d false).append (.refl _)).append (TagOption.bears s d "separator" options)).append
        (TagOption.bears s d "format" options)).append (TagOption.bears s d "null" options)
  | .choice branches none => by
      rw [Element.findings, Element.findings]
      exact (Branch.bearsAll s d branches).append (.refl _)
  | .choice branches (some body) => by
      rw [Element.findings, Element.findings]
      exact (Branch.bearsAll s d branches).append (Element.bearsAll s d body)

theorem Element.bearsAll (s : Scope) (d : Directory) : (es : List Element) →
    Bears (s.directory.Grows d) (Element.findingsAll s es) (Element.findingsAll (s.amid d) es)
  | [] => .refl _
  | e :: rest => by
      rw [Element.findingsAll, Element.findingsAll]
      exact (e.bears s d).append (Element.bearsAll s d rest)

theorem Branch.bearsAll (s : Scope) (d : Directory) : (bs : List Branch) →
    Bears (s.directory.Grows d) (Branch.findingsAll s bs) (Branch.findingsAll (s.amid d) bs)
  | [] => .refl _
  | ⟨condition, body, _⟩ :: rest => by
      rw [Branch.findingsAll, Branch.findingsAll]
      exact ((condition.bears s d).append (Element.bearsAll s d body)).append (Branch.bearsAll s d rest)

end

/-! ## Compiling -/

/-- What is found in a template has the same effect as on its parts. -/
theorem Template.problems_bears (t : Template) (d d' : Directory) :
    (d.Grows d' → t.problems d = [] → t.problems d' = []) ∧
      ∀ x ∈ t.problems d, x.kind.isMendable = false → t.problems d' ≠ [] := by
  have hdefault (e : Expr) := e.bears ⟨d, [t.formals]⟩ d' false
  have hbody := Element.bearsAll ⟨d, [t.formals]⟩ d' t.body
  unfold problems
  refine ⟨fun hg hn => ?_, fun x hx hm hn => ?_⟩
  · obtain ⟨hdefaults, hn⟩ := List.append_eq_nil_iff.mp hn
    refine List.append_eq_nil_iff.mpr ⟨List.flatMap_eq_nil_iff.mpr fun e he => ?_, ?_⟩
    · exact List.map_eq_nil_iff.mpr
        ((hdefault e.2).clear hg (List.map_eq_nil_iff.mp (List.flatMap_eq_nil_iff.mp hdefaults e he)))
    · exact List.map_eq_nil_iff.mpr (hbody.clear hg (List.map_eq_nil_iff.mp hn))
  · obtain ⟨hdefaults, hn⟩ := List.append_eq_nil_iff.mp hn
    rcases List.mem_append.mp hx with hx | hx
    · obtain ⟨e, he, hx⟩ := List.mem_flatMap.mp hx
      obtain ⟨f, hf, rfl⟩ := List.mem_map.mp hx
      exact (hdefault e.2).lasting f hf hm (List.map_eq_nil_iff.mp (List.flatMap_eq_nil_iff.mp hdefaults e he))
    · obtain ⟨f, hf, rfl⟩ := List.mem_map.mp hx
      exact hbody.lasting f hf hm (List.map_eq_nil_iff.mp hn)

namespace Program

variable {d d' : Directory} {name source : String} {formals : Formals} {p p' : Program}

/-- The program of a definition, if it compiles among the templates of a directory. -/
def of? (d : Directory) (name : String) (formals : Formals) (source : String) : Option Program :=
  (compile d name formals source).toOption

theorem compile_read {t : Template} (h : Template.read name formals source = .ok t) :
    compile d name formals source =
      match t.problems d with
      | [] => .ok (.ofTemplate t (.ofRead h))
      | found => .error ⟨name, found⟩ := by
  unfold compile
  split
  · rename_i he
    cases h.symm.trans he
  · rename_i ht
    cases h.symm.trans ht
    rfl

theorem of?_eq_some : of? d name formals source = some p ↔ compile d name formals source = .ok p := by
  unfold of?
  cases compile d name formals source with
  | ok q => exact ⟨fun h => congrArg _ (Option.some.inj h), fun h => congrArg _ (Except.ok.inj h)⟩
  | error e => exact ⟨nofun, nofun⟩

/-- The program does not depend on what the directory knows. -/
theorem of?_unique (h : of? d name formals source = some p) (h' : of? d' name formals source = some p') :
    p = p' := by
  obtain ⟨t, ht, -, hc, rfl, rfl, rfl⟩ := of_compile (of?_eq_some.mp h)
  obtain ⟨t', ht', -, hc', hn, hf, hs⟩ := of_compile (of?_eq_some.mp h')
  rw [hn, hf, hs] at ht'
  cases ht.symm.trans ht'
  exact eq_of_toCode (hc.symm.trans hc')

theorem of?_grows (hg : d.Grows d') (h : of? d name formals source = some p) :
    of? d' name formals source = some p := by
  obtain ⟨t, ht, hn, -, rfl, rfl, rfl⟩ := of_compile (of?_eq_some.mp h)
  have hc := compile_read (d := d') ht
  rw [(t.problems_bears d d').1 hg hn] at hc
  have h' := of?_eq_some.mpr hc
  rwa [← of?_unique h h'] at h'

/-- Where a directory grew and nothing was mended, a definition compiles to what it did. -/
theorem of?_congr (hg : d.Grows d') (hm : of? d name formals source = none → of? d' name formals source = none) :
    of? d' name formals source = of? d name formals source := by
  cases h : of? d name formals source with
  | none => exact hm h
  | some p => exact of?_grows hg h

/-- What no further definition can mend fails among all templates. -/
theorem of?_lasting {e : CompileError} (h : compile d name formals source = .error e)
    (hm : e.isMendable = false) (d' : Directory) : of? d' name formals source = none := by
  rw [CompileError.isMendable_eq] at hm
  cases hr : Template.read name formals source with
  | error e =>
    unfold of? compile
    split
    · rfl
    · rename_i ht
      cases hr.symm.trans ht
  | ok t =>
    have hp : t.problems d' ≠ [] := by
      rw [compile_read hr] at h
      split at h
      · cases h
      · rename_i hne
        cases h
        obtain ⟨x, hx⟩ := List.exists_mem_of_ne_nil _ hne
        exact (t.problems_bears d d').2 x hx (by simpa using List.any_eq_false.mp hm x hx)
    rw [of?, compile_read hr]
    split
    · exact absurd ‹_› hp
    · rfl

end Program

/-! ## Directories of groups -/

namespace Group

theorem findIn?_append (name : String) (gs hs : List Group) :
    findIn? name (gs ++ hs) = (findIn? name gs).or (findIn? name hs) := by
  induction gs with
  | nil => rfl
  | cons g gs ih =>
    rw [List.cons_append, findIn?, findIn?, ih]
    cases g.find? name <;> rfl

theorem formalsOf?_eq (g : Group) (name : String) : g.formalsOf? name =
    ((Dict.find? g.templates name).map Definition.formals).or (g.inheritedFormalsOf? name) := by
  cases g with
  | mk group templates imports listener renderers =>
    rw [formalsOf?, inheritedFormalsOf?, findInherited?, find?]
    cases Dict.find? templates name <;> rfl

/-- What a group knows are its templates and its imports. -/
theorem directory_eq {g g' : Group} (ht : g.templates = g'.templates) (hi : g.imports = g'.imports) :
    g.directory = g'.directory := by
  have hinherited : g.inheritedFormalsOf? = g'.inheritedFormalsOf? := funext fun name => by
    rw [inheritedFormalsOf?, inheritedFormalsOf?, findInherited?, findInherited?, hi]
  have hown : g.formalsOf? = g'.formalsOf? := funext fun name => by
    rw [formalsOf?_eq, formalsOf?_eq, ht, hinherited]
  have hnames : g.allNames = g'.allNames := by
    cases g
    cases g'
    cases ht
    cases hi
    rfl
  rw [directory, directory, hown, hinherited, visibleNames, visibleNames, hnames]

/-- A group that imports another one knows more. -/
theorem importing_grows (g other : Group) : g.directory.Grows (g.importing other).directory := by
  have hin (name : String) (formals : Formals) (h : g.inheritedFormalsOf? name = some formals) :
      (g.importing other).inheritedFormalsOf? name = some formals := by
    unfold inheritedFormalsOf? findInherited? importing at *
    rw [findIn?_append]
    cases hf : findIn? name g.imports with
    | none =>
      rw [hf] at h
      cases h
    | some found =>
      rw [hf] at h
      exact h
  intro callee formals h
  unfold Directory.find? at *
  split at h
  · rw [if_pos ‹_›]
    exact hin _ _ h
  · rw [if_neg ‹_›]
    change formalsOf? _ _ = _ at h ⊢
    rw [formalsOf?_eq] at h ⊢
    change ((Dict.find? g.templates callee.name).map Definition.formals).or _ = _
    cases hf : (Dict.find? g.templates callee.name).map Definition.formals with
    | none =>
      rw [hf] at h
      exact hin _ _ h
    | some own =>
      rw [hf] at h
      exact h

end Group

end Stencil
