import Stencil.Proofs.Acceptance
import Stencil.Proofs.Binding
import Stencil.Proofs.Tags
import Stencil.Proofs.Views
/-! Templates are called by their names. Where no other tag and no function has the name, a tag of the name and
arguments is read, checked and carried out as a call of the definition that other forms of calls refer to. -/

namespace Stencil

/-! ## Reading tags that call -/

/-- Names that calls in tags may start with: neither those of functions, nor those of conditionals. -/
structure StartsCalls (name : String) : Prop where
  isName : isName name = true
  noFunction : Builtin.ofName? name = none
  noConditional : name ≠ "if"
  noBranch : name ≠ "elseif"

/-- A tag that calls a template by its name. -/
def Print.callTag (name : String) (a : Arguments) : List Char := '<' :: (name.toList ++ (a.print ++ ['>']))

namespace Reader

variable {name : String} {a : Arguments} {d : List Char} {n : Nat}

theorem callTag_append (name : String) {as : List Char} (ha : a.print = Print.parentheses as) (d : List Char) :
    Print.callTag name a ++ d = '<' :: (name.toList ++ '(' :: (as ++ ')' :: '>' :: d)) := by
  rw [Print.callTag, ha, Print.parentheses]
  simp

theorem startsTag (h : StartsCalls name) : StartsTag name '(' :=
  ⟨h.isName, by decide, fun _ => ⟨h.noConditional, h.noBranch⟩, nofun⟩

/-- The tag is read as one that calls. -/
theorem callTag_takes (h : StartsCalls name) (ha : SpellsArguments a) (hn : 16 * (Print.callTag name a).length ≤ n) :
    Takes (tag n) (Print.callTag name a ++ d) d
      (·.unplaced = (Element.tag (.call ⟨name, false⟩ a default) [] default).unplaced) := by
  obtain ⟨as, has⟩ := Arguments.print_eq a
  have hstarts : Starts (name.toList ++ a.print) :=
    .name h.isName fun x hx => by rw [has] at hx; cases hx; exact .inl rfl
  have hspells : Spells true (name.toList ++ a.print) (.call ⟨name, false⟩ a default) :=
    ((SpellsPrimary.call h.isName h.noFunction ha default).member.chain hstarts).spells hstarts
  have hsource : Print.callTag name a ++ d = '<' :: ((name.toList ++ a.print) ++ '>' :: d) := by simp [Print.callTag]
  rw [hsource]
  exact bareTag_takes hstarts hspells (by simpa [Print.callTag, Nat.add_assoc] using hn)

/-- Wherever elements are read, the tag is read as one that calls, and reading goes on behind it. -/
theorem elements_callTag (h : StartsCalls name) (ha : SpellsArguments a) {nested : Bool} {d' : List Char}
    {P Q : List Element → Prop} (hn : 16 * (Print.callTag name a).length ≤ n) (hes : Takes (elements n nested) d d' P)
    (hgo : ∀ e es, e.unplaced = (Element.tag (.call ⟨name, false⟩ a default) [] default).unplaced → P es → Q (e :: es)) :
    Takes (elements (n + 1) nested) (Print.callTag name a ++ d) d' Q := by
  have ht := callTag_takes (d := d) h ha hn
  obtain ⟨as, has⟩ := Arguments.print_eq a
  rw [callTag_append name has] at ht ⊢
  exact elements_tag (startsTag h) ht hes hgo

end Reader

/-! ## Trees up to places -/

theorem Expr.unplaced_call {e : Expr} {callee : Callee} {es : List Expr}
    (h : e.unplaced = (Expr.call callee (.positional es) default).unplaced) :
    ∃ es' s, e = .call callee (.positional es') s ∧ Expr.unplacedAll es' = Expr.unplacedAll es := by
  cases e with
  | call callee' a s =>
    simp only [unplaced, call.injEq] at h
    obtain ⟨rfl, h, -⟩ := h
    cases a with
    | positional es' => exact ⟨es', s, rfl, by simpa [Arguments.unplaced] using h⟩
    | named as => cases h
  | _ => cases h

/-! ## Carrying out calls -/

namespace Rendering

/-- What calls of a definition come to: an instance of its program, with values for its parameters in order. Where it
does not compile, that is reported, and the template that calls ends. -/
def invoked (settings : Settings) (env : Env) (name : String) (native : Group) (d : Definition)
    (values : List Value) : Attempt Instance := do
  let found : Rendering (Except Unresolved (Group × Program)) :=
    inWorkspace (Group.resolveFound name (some (native, d)))
  match ← found with
  | .ok (native, program) =>
    return (program.formals.parameters.zip values).foldl (fun i (p, v) => i.bind p.name v)
      (.ofProgram settings.group native program none)
  | .error _ =>
    report settings env .templateCompileFailed [name]
    failure

variable {settings : Settings} {env : Env} {notes : List Making} {m : Machine}

theorem instantiate_invoked {callee : Callee} {native : Group} {d : Definition} {values : List Value}
    (hfound : (if callee.inherited then env.here.bound.native else settings.group).findCallee? callee = some (native, d))
    (hn : notes[d.slot]? = some (callee.name, d.formals, d.source)) (hm : m.workspace.Filed notes)
    (hv : values.length ≤ d.formals.size) : (instantiate settings env callee (.positional values)).run m =
      (invoked settings env callee.name native d values).run m := by
  have hresolve : resolve settings env callee = inWorkspace (Group.resolveFound callee.name (some (native, d))) := by
    rw [← hfound, resolve, Group.findCallee?]
    split <;> rfl
  obtain ⟨r, w, hrun, -, hmeans⟩ := hm.resolveFound callee.name (some (native, d)) (by rintro _ _ ⟨⟩; exact hn)
  have hfind (next : Except Unresolved (Group × Program) → Attempt Instance) :
      (liftM (inWorkspace (Group.resolveFound callee.name (some (native, d)))) >>= next : Attempt Instance).run m =
        (next r).run { m with workspace := w } :=
    congrArg (fun p : Except Unresolved (Group × Program) × Workspace =>
      (next p.1).run { m with workspace := p.2 }) hrun
  rw [instantiate, hresolve, invoked]
  refine (hfind _).trans (Eq.trans ?_ (hfind _).symm)
  cases r with
  | error e =>
    cases e with
    | undefined => cases hmeans
    | compileFailed => rfl
  | ok found =>
    obtain ⟨native, p⟩ := found
    obtain ⟨_, ⟨⟩, directory, hp⟩ := hmeans
    obtain ⟨-, -, -, -, -, hformals, -⟩ := Program.of_compile hp
    have hsize : ¬ values.length > p.formals.parameters.length := by
      rw [hformals]
      exact Nat.not_lt.mpr hv
    dsimp only [bindArguments, Instance.ofProgram]
    rw [if_neg hsize]

end Rendering

section

open Rendering

variable {run : Env → Instance → Rendering Unit} {r : Reading} {settings : Settings} {env : Env} {o : Origin}
  {before : Nat} {m m₁ : Machine} {notes : List Making} {g : Group} {d : Definition} {name : String}

/-- What an attempt goes on to depends on how it went alone. -/
theorem Rendering.run_bind_eq {α β : Type} {x y : Attempt α} {k : Machine} (h : x.run m = y.run k)
    (f : α → Attempt β) : (x >>= f).run m = (y >>= f).run k := by
  rw [OptionT.run_bind, OptionT.run_bind]
  exact congrArg (Course.bind _) h

theorem Expr.length_evalAll {es : List Expr} {vs : List Value}
    (h : Gives run (Expr.evalAll r settings env o before es) m vs m₁) : vs.length = es.length := by
  induction es generalizing before m vs with
  | nil => cases h; rfl
  | cons e es ih =>
    obtain ⟨v, j, -, h⟩ := Gives.of_bind h
    obtain ⟨rest, k, hrest, h⟩ := Gives.of_bind h
    cases h
    exact congrArg (· + 1) (ih hrest)

variable (run r settings env o name g d)

/-- Evaluating an expression comes to calling a definition with values. -/
def Expr.Invokes (before : Nat) (x : Expr) (m : Machine) (values : List Value) (m₁ : Machine) : Prop :=
  handle run (x.eval r settings env o before).run m =
    handle run (do return .template (← invoked settings (env.atPlace (o.place x.span)) name g d values) :
      Attempt Value).run m₁

/-- How calls of a definition are carried out, whatever form they have: where their arguments have values, all come to
calling it with these, and a tag has the instance run in its place. -/
structure Definition.Called (notes : List Making) : Prop where
  named : settings.group.find? name = some (g, d) → ∀ {before es m vs m₁} (s : Span), es.length ≤ d.formals.size →
    m₁.workspace.Filed notes → Gives run (Expr.evalAll r settings env o before es) m vs m₁ →
    Expr.Invokes run r settings env o g d name before (.call ⟨name, false⟩ (.positional es) s) m vs m₁
  inherited : env.here.bound.native.findInherited? name = some (g, d) → ∀ {before es m vs m₁} (s : Span),
    es.length ≤ d.formals.size → m₁.workspace.Filed notes →
    Gives run (Expr.evalAll r settings env o before es) m vs m₁ →
    Expr.Invokes run r settings env o g d name before (.call ⟨name, true⟩ (.positional es) s) m vs m₁
  computed : settings.group.find? name = some (g, d) → ∀ {before e es m v j k vs m₁} (s : Span),
    es.length ≤ d.formals.size → m₁.workspace.Filed notes → Gives run (e.eval r settings env o before) m v j →
    handle run (renderEarly settings (env.atPlace (o.place e.span)) v) j = .done name k →
    Gives run (Expr.evalAll r settings env o (before + e.started) es) k vs m₁ →
    Expr.Invokes run r settings env o g d name before (.callComputed e (.positional es) s) m vs m₁
  written : ∀ {before x m vs m₁ i k l} (s : Span), Expr.Invokes run r settings env o g d name before x m vs m₁ →
    Gives run (invoked settings (env.atPlace (o.place x.span)) name g d vs) m₁ i k →
    run (env.atPlace (o.place s)) i k = .done () l → ∃ l', l'.sink = l.sink ∧ l'.workspace = l.workspace ∧
      Gives run ((Element.tag x [] s).eval r settings env o before) m () l'

variable {run r settings env o g d name}

theorem Expr.invokes_call {callee : Callee} {es : List Expr} {vs : List Value} (hc : callee.name = name)
    (hfound : (if callee.inherited then env.here.bound.native else settings.group).findCallee? callee = some (g, d))
    (hn : notes[d.slot]? = some (name, d.formals, d.source)) (s : Span) (hsize : es.length ≤ d.formals.size)
    (hm : m₁.workspace.Filed notes) (hvs : Gives run (Expr.evalAll r settings env o before es) m vs m₁) :
    Expr.Invokes run r settings env o g d name before (.call callee (.positional es) s) m vs m₁ := by
  subst hc
  have hsame : (instantiate settings (env.atPlace (o.place s)) callee (.positional vs)).run m₁ =
      (invoked settings (env.atPlace (o.place s)) callee.name g d vs).run m₁ :=
    instantiate_invoked hfound hn hm (Nat.le_trans (Nat.le_of_eq (Expr.length_evalAll hvs)) hsize)
  rw [Invokes, eval, Arguments.eval]
  refine (handle_bind_of_done (hvs.bind (.pure (Passed.positional vs) m₁))).trans ?_
  exact congrArg (Course.handle run) (run_bind_eq hsame _)

theorem Definition.called (hname : name ≠ "") (hn : notes[d.slot]? = some (name, d.formals, d.source)) :
    d.Called run r settings env o g name notes where
  named hfound _ _ _ _ _ s hsize hm hvs := by
    refine Expr.invokes_call rfl ?_ hn s hsize hm hvs
    exact hfound
  inherited hfound _ _ _ _ _ s hsize hm hvs := by
    refine Expr.invokes_call rfl ?_ hn s hsize hm hvs
    exact hfound
  computed hfound _ e _ _ _ _ _ vs m₁ s hsize hm hv hk hvs := by
    have hfound' : (if (Callee.mk name false).inherited then (env.atPlace (o.place s)).here.bound.native
        else settings.group).findCallee? ⟨name, false⟩ = some (g, d) := hfound
    have hsame : (instantiateComputed settings (env.atPlace (o.place s)) name (.positional vs)).run m₁ =
        (invoked settings (env.atPlace (o.place s)) name g d vs).run m₁ := by
      rw [instantiateComputed, if_neg (by simpa using hname)]
      exact instantiate_invoked hfound' hn hm (Nat.le_trans (Nat.le_of_eq (Expr.length_evalAll hvs)) hsize)
    rw [Expr.Invokes, Expr.eval, Arguments.eval]
    refine (handle_bind_of_done hv).trans ((handle_bind_of_done (Gives.lift hk)).trans ?_)
    refine (handle_bind_of_done (hvs.bind (.pure (Passed.positional vs) m₁))).trans ?_
    exact congrArg (Course.handle run) (run_bind_eq hsame _)
  written s hx hi hrun := by
    have hvalue : Gives run _ _ _ _ := hx.trans (hi.bind (.pure _ _))
    have hwrite : handle run (writeValue settings (env.atPlace (o.place s)) {} (.template _)) _ = .done () _ :=
      congrArg (Course.bind _) hrun
    obtain ⟨l, hl, hsink, hworkspace⟩ := writeExpression_done hwrite
    exact ⟨l, hsink, hworkspace, hvalue.bind (.bind (.pure none _) (.bind (.pure none _) (.bind (.pure none _)
      (.bind (.lift rfl) (.lift hl)))))⟩

end

/-! ## Checking calls -/

theorem Expr.call_findings {scope : Scope} {callee : Callee} {formals : Formals} {es : List Expr} (s : Span)
    (hf : scope.directory.find? callee = some formals) (hsize : es.length ≤ formals.size) :
    (Expr.call callee (.positional es) s).findings scope false = Expr.findingsAll scope false es := by
  have hnone : callFindings scope.directory false callee (.positional es) s = [] :=
    callFindings_eq_nil.mpr ⟨formals, hf, fun _ => hsize, fun h => by cases h⟩
  rw [findings, hnone, Arguments.findings, List.nil_append]

/-! ## Calls by names -/

/-- Text is read as an expression, up to places. -/
def Expr.IsReadFrom (e : Expr) (cs : List Char) : Prop :=
  ∃ read, Expr.read (String.ofList cs) = .ok read ∧ read.unplaced = e.unplaced

/-- A tag that calls a template by its name with positional arguments, which are known up to places. -/
def Element.CallsWith (name : String) (es : List Expr) (e : Element) : Prop :=
  ∃ es' s s', e = .tag (.call ⟨name, false⟩ (.positional es') s) [] s' ∧ Expr.unplacedAll es' = Expr.unplacedAll es

theorem Element.CallsWith.of_unplaced {name : String} {es : List Expr} {e : Element} (h : e.unplaced =
    (Element.tag (.call ⟨name, false⟩ (.positional es) default) [] default).unplaced) : e.CallsWith name es := by
  obtain ⟨value, s', rfl, hv⟩ := Element.unplaced_tag h
  obtain ⟨es', s, rfl, hes'⟩ := Expr.unplaced_call hv
  exact ⟨es', s, s', rfl, hes'⟩

/-- The tag of a name and of arguments is read as one that calls a template of this name with these: alone, and in
front of whatever else may be read. -/
structure TagCalls (name : String) (es : List Expr) : Prop where
  alone : ∃ e, Element.readAll (String.ofList (Print.callTag name (.positional es))) = .ok [e] ∧ e.CallsWith name es
  within : ∀ {n nested d d' P}, 16 * (Print.callTag name (.positional es)).length ≤ n →
    Reader.Takes (Reader.elements n nested) d d' P →
    Reader.Takes (Reader.elements (n + 1) nested) (Print.callTag name (.positional es) ++ d) d' fun read =>
      ∃ e rest, read = e :: rest ∧ e.CallsWith name es ∧ P rest

/-- The other forms of calls, which a name may have whatever it is. -/
structure FormsCall (name : String) (es : List Expr) : Prop where
  mapped : ∀ x, x.Writable true → (Expr.map x [.call ⟨name, false⟩ (.positional []) default] default).IsReadFrom
    (x.print ++ ':' :: (name.toList ++ ['(', ')']))
  inherited : (Expr.call ⟨name, true⟩ (.positional es) default).IsReadFrom
    ("super.".toList ++ (name.toList ++ (Arguments.positional es).print))
  computed : ∀ x, x.Writable true → (Expr.callComputed x (.positional es) default).IsReadFrom
    (Print.parentheses x.print ++ (Arguments.positional es).print)

section

variable {name : String} {es : List Expr}

theorem tagCalls (h : StartsCalls name) (hes : Expr.WritableAll es) : TagCalls name es := by
  have ha : Reader.SpellsArguments (.positional es) := Arguments.reads (.positional es) hes
  refine ⟨?_, fun hn hrest => Reader.elements_callTag h ha hn hrest fun e rest he hrest =>
    ⟨e, rest, rfl, .of_unplaced he, hrest⟩⟩
  obtain ⟨as, has⟩ := Arguments.print_eq (.positional es)
  have hsource := Reader.callTag_append name has []
  rw [List.append_nil] at hsource
  refine Reader.readAll_tag (Reader.startsTag h) hsource ?_ fun n hn => ?_
  · rintro _ ⟨_, _, _, rfl, -⟩
    exact id
  · have ht := Reader.callTag_takes (d := []) h ha hn
    rw [List.append_nil] at ht
    exact ht.mono fun e he => .of_unplaced he

theorem formsCall (h : isName name = true) (hes : Expr.WritableAll es) : FormsCall name es where
  mapped x hx := by
    have hw : (Expr.map x [.call ⟨name, false⟩ (.positional []) default] default).Writable true :=
      ⟨hx, ⟨⟨h, trivial⟩, trivial⟩, nofun, nofun⟩
    have hprint : (Expr.map x [.call ⟨name, false⟩ (.positional []) default] default).print =
        x.print ++ ':' :: (name.toList ++ ['(', ')']) := by
      simp [Expr.print, Expr.printAll, Expr.printMore, Arguments.print, Print.parentheses]
    exact hprint ▸ Expr.read_printed hw
  inherited := by
    have hw : (Expr.call ⟨name, true⟩ (.positional es) default).Writable true := ⟨h, nofun, hes⟩
    exact Reader.Expr.print_inherited name (.positional es) default ▸ Expr.read_printed hw
  computed x hx := by
    have hw : (Expr.callComputed x (.positional es) default).Writable true := ⟨hx, hes⟩
    have hprint : (Expr.callComputed x (.positional es) default).print =
        Print.parentheses x.print ++ (Arguments.positional es).print := by rw [Expr.print]
    exact hprint ▸ Expr.read_printed hw

/-- A definition that can be called by its name, from templates of its group and from those of groups that import it.
In a call that its parameters suffice for, nothing is found but what is found in the arguments. All forms of calls are
carried out as calls of the definition. -/
structure Definition.Callable (d : Definition) (name : String) (g : Group) : Prop where
  found : g.findCallee? ⟨name, false⟩ = some (g, d)
  imported : ∀ k : Group, k.findInherited? name = none → (k.importing g).findCallee? ⟨name, true⟩ = some (g, d)
  checked : ∀ (k : Group) (inherited : Bool), k.findCallee? ⟨name, inherited⟩ = some (g, d) → ∀ (scope : Scope) es s,
    scope.directory = k.directory → es.length ≤ d.formals.size →
    (Expr.call ⟨name, inherited⟩ (.positional es) s).findings scope false = Expr.findingsAll scope false es
  /-- A template of a tag compiles if nothing is found in the arguments, to code that creates an instance and writes it. -/
  compiled : ∀ {source es s s'}, Element.readAll source = .ok [.tag (.call ⟨name, false⟩ (.positional es) s) [] s'] →
    es.length ≤ d.formals.size → ∀ caller names, Expr.findingsAll ⟨g.directory, [.ofNames names]⟩ false es = [] →
    ∃ p, Program.compile g.directory caller (.ofNames names) source = .ok p ∧
      p.toCode = .assemble caller (.ofNames names) source false (Expr.lowerAll ⟨source, false⟩ 0 es ++
        [⟨.create name false (.positional es.length), some s⟩, ⟨.write {}, some s'⟩])
  called : ∀ notes : List Making, notes[d.slot]? = some (name, d.formals, d.source) →
    ∀ run r settings env o, d.Called run r settings env o g name notes

/-- Own definitions are found. -/
theorem Group.findCallee?_own {g : Group} {d : Definition} {name : String} (hd : Dict.find? g.templates name = some d) :
    g.findCallee? ⟨name, false⟩ = some (g, d) := by
  rw [findCallee?, if_neg Bool.false_ne_true, find?_eq_closest?, closest?_own hd]

theorem Definition.callable {d : Definition} {name : String} {g : Group} (hname : name ≠ "")
    (hd : Dict.find? g.templates name = some d) : d.Callable name g where
  found := Group.findCallee?_own hd
  imported k hk := by
    rw [Group.findCallee?, if_pos rfl, Group.findInherited?]
    change Group.findIn? name (k.imports ++ [g]) = _
    rw [Group.findIn?_append, show Group.findIn? name k.imports = none from hk, Option.none_or, Group.findIn?,
      Group.find?_eq_closest?, Group.closest?_own hd]
  checked k inherited hk scope es s hscope hsize := by
    refine Expr.call_findings s ?_ hsize
    rw [hscope, Group.find?_directory, hk]
    rfl
  compiled {source es s s'} hread hsize caller names hes := by
    have hdefaults : (Formals.ofNames names).readDefaults = [] := by
      simp [Formals.readDefaults, Formals.ofNames, Formals.parameters]
    have htemplate : Template.read caller (.ofNames names) source = .ok ⟨caller, .ofNames names, ⟨source, false⟩, [],
        [.tag (.call ⟨name, false⟩ (.positional es) s) [] s'], false, 0⟩ := by
      rw [Template.read, hread, hdefaults]
      rfl
    have hfindings : (Expr.call ⟨name, false⟩ (.positional es) s).findings ⟨g.directory, [.ofNames names]⟩ false = [] := by
      refine (Expr.call_findings s ?_ hsize).trans hes
      rw [Group.find?_directory, Group.findCallee?_own hd]
      rfl
    have hproblems : Template.problems g.directory ⟨caller, .ofNames names, ⟨source, false⟩, [],
        [.tag (.call ⟨name, false⟩ (.positional es) s) [] s'], false, 0⟩ = [] := by
      rw [Template.problems, Element.findingsAll, Element.findings, hfindings]
      rfl
    refine ⟨.ofTemplate _ (.ofRead htemplate), ?_, ?_⟩
    · rw [Program.compile_read htemplate, hproblems]
    · change Template.code _ = _
      simp [Template.code, Template.lines, Template.beforeBody, lowerDefaults, Element.lowerAll, Element.lower,
        Expr.lower, Arguments.lower, Arguments.passing, TagOption.lower, TagOption.present, Origin.place]
  called notes hn run r settings env o := Definition.called hname hn

/-- Names that definitions are accepted for call them. The tag of such a name, other than those of functions, `if` and
`elseif`, and of positional arguments is read as a call of this name, and so are the other forms of calls, whatever the
name is. Wherever a group has a definition of the name, all of these call it. -/
theorem definitions_called {g₀ g₁ : Group} {name source : String} {formals : Formals} {w₀ w₁ : Workspace}
    (hdefined : (g₀.define name formals source).run w₀ = (.ok g₁, w₁)) :
    (∃ d, Dict.find? g₁.templates name = some d ∧ d.formals = formals ∧ d.source = source) ∧
    (∀ es, Expr.WritableAll es → FormsCall name es ∧
      (Builtin.ofName? name = none → name ≠ "if" → name ≠ "elseif" → TagCalls name es)) ∧
    ∀ (g : Group) (d : Definition), Dict.find? g.templates name = some d → d.Callable name g := by
  obtain ⟨hname, hown⟩ := Group.define_ok hdefined
  have hne : name ≠ "" := by
    rintro rfl
    cases hname
  exact ⟨hown, fun es hes => ⟨formsCall hname hes, fun hf hif helseif => tagCalls ⟨hname, hf, hif, helseif⟩ hes⟩,
    fun g d hd => d.callable hne hd⟩

theorem definitions_called_row : ∃ g w,
    ((Group.empty "g").define "row" (.ofNames ["x", "sep"]) "<x><sep>").run .empty = (.ok g, w) ∧
      (∃ d, Dict.find? g.templates "row" = some d ∧ d.formals = .ofNames ["x", "sep"] ∧ d.source = "<x><sep>") ∧
      (∀ es, Expr.WritableAll es → FormsCall "row" es ∧
        (Builtin.ofName? "row" = none → "row" ≠ "if" → "row" ≠ "elseif" → TagCalls "row" es)) ∧
      ∀ (g : Group) (d : Definition), Dict.find? g.templates "row" = some d → d.Callable "row" g := by
  have hnone : (Group.empty "g").refusal? "row" (.ofNames ["x", "sep"]) = none := by decide
  have hdefined := Group.define_run (Group.empty "g") "row" (.ofNames ["x", "sep"]) "<x><sep>" .empty
  rw [hnone] at hdefined
  exact ⟨_, _, hdefined, definitions_called hdefined⟩

/-- Whether elements are a tag that calls a template by its name, and nothing else. -/
def Element.callsOnly : List Element → Bool
  | [.tag (.call _ _ _) _ _] => true
  | _ => false

/-- Definitions are accepted for names of functions and for `if`, too, but their tags call none of them. -/
theorem definitions_called_reserved :
    (∃ g w, ((Group.empty "g").define "first" (.ofNames ["x"]) "[<x>]").run .empty = (.ok g, w)) ∧
    (∃ g w, ((Group.empty "g").define "if" (.ofNames ["x"]) "[<x>]").run .empty = (.ok g, w)) ∧
    Expr.WritableAll [.literal "ab" default] ∧ ¬ TagCalls "first" [.literal "ab" default] ∧
    ¬ TagCalls "if" [.literal "ab" default] := by
  have hfirst := Group.define_run (Group.empty "g") "first" (.ofNames ["x"]) "[<x>]" .empty
  rw [show (Group.empty "g").refusal? "first" (.ofNames ["x"]) = none by decide] at hfirst
  have hif := Group.define_run (Group.empty "g") "if" (.ofNames ["x"]) "[<x>]" .empty
  rw [show (Group.empty "g").refusal? "if" (.ofNames ["x"]) = none by decide] at hif
  have hread (name : String) (hname : name = "first" ∨ name = "if") : (Element.readAll (String.ofList
      (Print.callTag name (.positional [.literal "ab" default])))).toOption.any Element.callsOnly = false := by
    rcases hname with rfl | rfl <;> decide +kernel
  have hnot (name : String) (hname : name = "first" ∨ name = "if") : ¬ TagCalls name [.literal "ab" default] := by
    rintro ⟨⟨_, h, _, _, _, rfl, -⟩, -⟩
    have := hread name hname
    rw [h] at this
    cases this
  exact ⟨⟨_, _, hfirst⟩, ⟨_, _, hif⟩, ⟨trivial, trivial⟩, hnot _ (.inl rfl), hnot _ (.inr rfl)⟩

end

end Stencil
