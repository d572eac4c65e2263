import Stencil.Command.Line
import Stencil.Proofs.Directories
import Stencil.Proofs.Numerals
import Stencil.Proofs.Stores
/-! What a render prints of the attributes of a request. Each is printed as it was given, but for whole numbers, which are
printed plainly. -/

namespace Stencil

open Rendering

/-! ## Arguments -/

/-- Names are made of nothing but what continues names. -/
theorem not_mem_of_isName {name : String} (h : isName name = true) {c : Char} (hc : continuesName c = false) :
    c ∉ name.toList := by
  obtain ⟨x, cs, hl, -, hall⟩ := Reader.isName_iff.mp h
  intro hm
  have hc' := List.all_eq_true.mp hall c (hl ▸ hm)
  cases hc.symm.trans hc'

namespace CommandLine

/-- The arguments that give attributes. -/
def bindingArguments : List (String × String) → List String
  | [] => []
  | (name, text) :: bindings => "-a" :: (name ++ "=" ++ text) :: bindingArguments bindings

/-- The arguments that ask for a render with some attributes. -/
def renderArguments (path template : String) (trace : Bool) (bindings : List (String × String)) : List String :=
  ["-d", path, "render", "-t", template] ++ (if trace then ["--trace"] else []) ++ bindingArguments bindings

/-- The text of an attribute is what stands behind the first equals sign. -/
theorem binding?_eq {name : String} (hname : '=' ∉ name.toList) (text : String) :
    binding? (name ++ "=" ++ text) = some (name, text) := by
  have hsource : (name ++ "=" ++ text).toList = name.toList ++ '=' :: text.toList := by simp
  have hall : name.toList.all (· != '=') = true := List.all_eq_true.mpr fun c hc => by
    rw [bne_iff_ne]
    rintro rfl
    exact hname hc
  obtain ⟨htake, hdrop⟩ := Reader.takeWhile_append (d := '=' :: text.toList) hall fun c hc => by cases hc; rfl
  rw [binding?, hsource, hdrop, htake]
  dsimp only
  rw [String.ofList_toList, String.ofList_toList]

theorem readOptions_bindingArguments {bindings : List (String × String)} (h : ∀ b ∈ bindings, '=' ∉ b.1.toList)
    (o : Options) : readOptions o (bindingArguments bindings) = .ok { o with bindings := o.bindings ++ bindings } := by
  induction bindings generalizing o with
  | nil =>
    rw [bindingArguments, List.append_nil]
    rfl
  | cons b bindings ih =>
    obtain ⟨hb, h⟩ := List.forall_mem_cons.mp h
    rw [bindingArguments, readOptions]
    simp only [binding?_eq hb]
    rw [ih h, List.append_assoc]
    rfl

theorem read_renderArguments (path template : String) (trace : Bool) (bindings : List (String × String))
    (h : ∀ b ∈ bindings, '=' ∉ b.1.toList) : read (renderArguments path template trace bindings) =
      .ok (path, .render { template, bindings, trace } none) := by
  have hoptions : readOptions {} (renderArguments path template trace bindings) =
      .ok { directory := path, command := some "render", template := some template, bindings, trace } := by
    rw [renderArguments]
    cases trace <;> simp [readOptions, readOptions_bindingArguments h]
  rw [read, hoptions]
  rfl

end CommandLine

/-! ## Directories -/

namespace Group

variable {g g' : Group} {w w' : Workspace} {name source : String}

/-- A group has a template of its own, which may use any attribute. -/
def Defines (g : Group) (name source : String) : Prop :=
  ∃ d, Dict.find? g.templates name = some d ∧ d.formals = .any ∧ d.source = source

/-- A group that defines all that another one does, and has the same renderers. -/
structure Extends (g g' : Group) : Prop where
  renderers : g'.renderers = g.renderers
  defines : ∀ {name source}, g.Defines name source → g'.Defines name source

theorem Extends.refl (g : Group) : g.Extends g := ⟨rfl, fun h => h⟩

theorem Extends.trans {k : Group} (h : g.Extends g') (h' : g'.Extends k) : g.Extends k :=
  ⟨h'.renderers.trans h.renderers, fun hd => h'.defines (h.defines hd)⟩

theorem Extends.define {formals : Formals} (h : (g.define name formals source).run w = (.ok g', w')) : g.Extends g' := by
  rw [define_run] at h
  split at h
  · cases h
  · rename_i hnone
    cases h
    refine ⟨rfl, ?_⟩
    rintro other _ ⟨d, hd, hformals, rfl⟩
    have hne : other ≠ name := by
      rintro rfl
      exact not_mem_keys hnone (List.mem_map_of_mem (Dict.mem_of_find? hd))
    -- what was defined before may have moved to another slot
    have hsame := congrArg (Dict.find? · other) (renewEach_unslotted w g.templates)
    rw [Dict.find?_mapValues, Dict.find?_mapValues, hd] at hsame
    obtain ⟨d', hd', hsame⟩ := Option.map_eq_some_iff.mp hsame
    refine ⟨d', (Dict.find?_insert_of_ne _ _ hne).trans hd', ?_, ?_⟩
    · exact (congrArg (·.formals) hsame).trans hformals
    · exact congrArg (·.source) hsame

/-- Defining the templates of files defines each of them. -/
theorem Extends.defineFiles (path : String) (files : List TemplateFile) {g : Group} {w : Workspace}
    (h : (Group.defineFiles path g files).run w = (.ok g', w')) : g.Extends g' ∧
      ∀ f ∈ files, ∀ name source, f.template? = some name → f.content = .ok source → g'.Defines name source := by
  induction files generalizing g w with
  | nil =>
    cases h
    exact ⟨.refl _, List.forall_mem_nil _⟩
  | cons f files ih =>
    rcases defineFiles_cons h with ⟨hnone, h⟩ | ⟨_, _, k, v, hname, hcontent, hd, h⟩
    · obtain ⟨hext, hfiles⟩ := ih h
      refine ⟨hext, List.forall_mem_cons.mpr ⟨fun name source hn => ?_, hfiles⟩⟩
      cases hnone.symm.trans hn
    · obtain ⟨hext, hfiles⟩ := ih h
      refine ⟨(Extends.define hd).trans hext, List.forall_mem_cons.mpr ⟨fun name source hn hs => ?_, hfiles⟩⟩
      cases hname.symm.trans hn
      cases hcontent.symm.trans hs
      exact hext.defines (define_ok hd).2

/-- A directory that was loaded has the templates of its files, and no renderers. -/
theorem load_defines {path : String} {listener : Listener} {files : List TemplateFile}
    (h : (load path listener (.ok files)).run w = (.ok g, w')) : g.renderers = [] ∧
      ∀ f ∈ files, ∀ name source, f.template? = some name → f.content = .ok source → g.Defines name source := by
  obtain ⟨hext, hfiles⟩ := Extends.defineFiles path _ h
  refine ⟨hext.renderers, fun f hf name source hn => hfiles f ?_ name source hn⟩
  rw [TemplateFile.inOrder, List.mem_mergeSort, List.mem_filter]
  exact ⟨hf, by rw [hn]; rfl⟩

theorem renderer?_lone (himports : g.imports = []) (hrenderers : g.renderers = []) (kind : ScalarKind) :
    g.renderer? kind = none := by
  cases g
  cases himports
  cases hrenderers
  rw [renderer?, rendererIn?]
  rfl

end Group

/-- A template that only writes an attribute compiles. -/
theorem Program.compile_attribute {x : String} (h : StandsAlone x) (r : Reading) (directory : Directory) (name : String) :
    ∃ p place, compile directory name .any ("<" ++ x ++ ">") = .ok p ∧ p.Shows r x place := by
  obtain ⟨s₁, s, hread⟩ := Element.readAll_attribute h
  have htemplate : Template.read name .any ("<" ++ x ++ ">") =
      .ok ⟨name, .any, ⟨"<" ++ x ++ ">", false⟩, [], [.tag (.attribute x s₁) [] s], false, 0⟩ := by
    rw [Template.read, hread]
    rfl
  have hcompile := compile_read (d := directory) htemplate
  obtain ⟨place, hshows⟩ := shows_of_compile r hread hcompile
  exact ⟨_, place, hcompile, hshows⟩

/-! ## Writing texts -/

section

variable {settings : Settings} {m : Machine} {v : Value} {kind : ScalarKind} {plain : String}

/-- A scalar is written as its plain text if there is no renderer for its kind. -/
theorem Rendering.writeValue_plain (env : Env) (hv : v.scalar? = some (kind, plain))
    (hnone : settings.group.renderer? kind = none) (hs : m.sink.Free) :
    ∃ k, writeValue settings env {} v m = .done () k ∧ k.workspace = m.workspace ∧
      k.sink.text = m.sink.text ++ plain := by
  obtain ⟨k, hk, halongside, -, htext⟩ := writeText_free settings env hs plain
  have hscalar : writeScalar settings env kind plain none m = .done () k := by
    rw [writeScalar, scalarText, hnone]
    exact hk
  refine ⟨k, ?_, halongside.workspace, htext⟩
  rw [← hscalar]
  cases v with
  | bool | int | float | text | object => cases hv; rfl
  | null | sequence | map | template => cases hv

namespace Interpreter

variable {r : Reading} (i : Interpreter) {bound : Instance} {x : String} {place : Option Span}

theorem render_plain (hp : bound.program.Shows r x place) (hn : bound.enclosing = none) (hget : bound.get x = v)
    (hv : v.scalar? = some (kind, plain)) (hnone : bound.group.renderer? kind = none) :
    i.render bound = pure plain := by
  funext w
  have hnone : (i.settings bound.group).group.renderer? kind = none := hnone
  have hs : (i.enter bound w).2.sink.Free := ⟨rfl, rfl, nofun⟩
  obtain ⟨k, hk, hworkspace, htext⟩ := writeValue_plain ((i.enter bound w).1.atPlace place) hv hnone hs
  obtain ⟨hrender, -⟩ := i.render_shows hp hn (w := w) (k := k) (by rw [hget]; exact congrArg (Course.handle _) hk)
  refine hrender.trans ?_
  rw [htext, hworkspace]
  exact congrArg (·, w) String.empty_append

/-- Plain scalars that were added to an attribute are written one behind another. -/
theorem render_plains (hp : bound.program.Shows r x place) (hn : bound.enclosing = none)
    (hnone : ∀ kind, bound.group.renderer? kind = none) {vs : List Value} (hvs : ∀ v ∈ vs, v.HostBuilt)
    {plains : List String} (hplains : List.Forall₂ (fun v plain => ∃ kind, v.scalar? = some (kind, plain)) vs plains)
    {a : Attributes} (ha : Dict.find? a x = Attributes.joined vs) :
    i.render { bound with attributes := a } = pure (String.join plains) := by
  -- each of them alone tells nothing, so the next is rendered where the one before was
  have heach : (vs.mapM fun v => i.render (bound.bind x v)) = pure plains := by
    clear hvs ha
    induction hplains with
    | nil => rfl
    | @cons v plain vs plains h _ ih =>
      obtain ⟨kind, hv⟩ := h
      have hget : (bound.bind x v).get x = v := by
        rw [Instance.get, Instance.bind, Attributes.get, Dict.find?_insert_self, Option.getD_some]
      have hshown : (bound.bind x v).program.Shows r x place := hp
      have hrender : i.render (bound.bind x v) = pure plain := i.render_plain hshown hn hget hv (hnone kind)
      rw [List.mapM_cons, hrender, pure_bind, ih, pure_bind]
  rw [i.render_joined hp hn hvs ha, heach, map_pure]

end Interpreter

end

/-! ## Renders of a request -/

namespace Command

variable {g : Group} {w : Workspace} {path template x : String} {files : List TemplateFile}

/-- What is written for an attribute that is given as text. -/
def bindingText (text : String) : String := ((Decimal.readInt64? text).map toString).getD text

theorem bindingValue_scalar? (text : String) : ∃ kind, (bindingValue text).scalar? = some (kind, bindingText text) := by
  rw [bindingValue, bindingText]
  cases Decimal.readInt64? text with
  | some n => exact ⟨.int, rfl⟩
  | none => exact ⟨.text, rfl⟩

/-- Adding attributes that are given as text is a run of calls. -/
theorem appendAll_eq (bs : List (String × String)) (i : Instance) : appendAll i bs =
    (bs.map fun b => Attributes.Change.append b.1 (bindingValue b.2)).foldlM Attributes.Change.ofInstance i := by
  induction bs generalizing i with
  | nil => rfl
  | cons b bs ih =>
    rw [appendAll, List.map_cons, List.foldlM_cons]
    exact congrArg _ (funext ih)

/-- Texts that are given for a name in turn are what the attribute is given. -/
theorem given_texts (x : String) (texts : List String) :
    Attributes.given x (texts.map fun t => Attributes.Change.append x (bindingValue t)) = texts.map bindingValue := by
  induction texts using List.reverseRecOn with
  | nil => rfl
  | append_singleton texts t ih =>
    rw [List.map_append, List.map_singleton, Attributes.given_append, ih, List.map_append, List.map_singleton]

/-- A template that only writes an attribute is found, and nothing is told. -/
theorem lookup_attribute {cases : List Compilation} (h : g.Loaded cases w) (hd : g.Defines template ("<" ++ x ++ ">"))
    (hx : StandsAlone x) (r : Reading) : ∃ p place w', (g.lookup template).run w = (.ok (g, p), w') ∧
      p.formals = .any ∧ p.Shows r x place ∧ w'.delivered = #[] := by
  obtain ⟨d, hd, hformals, hsource⟩ := hd
  obtain ⟨p, place, hp, hshows⟩ := Program.compile_attribute hx r g.directory template
  obtain ⟨-, -, -, -, -, hany, -⟩ := Program.of_compile hp
  have hcompiled : (g.compiled template d).run w = (some p, w.settle d.slot (.ready p)) := by
    have hopen := g.compiled_open (e := (template, d)) (h.outcome d.slot)
    rw [hformals, hsource, hp] at hopen
    exact hopen
  exact ⟨p, place, _, Group.lookup_own hd hcompiled, hany, hshows, h.delivered⟩

/-- A request gives the attribute the texts in turn. -/
theorem bindAttributes_texts {i : Instance} (hany : i.program.formals = .any) (hi : i.attributes = [])
    {r : RenderRequest} (hr : r.attributes = none) {texts : List String} (hb : r.bindings = texts.map fun t => (x, t)) :
    ∃ a, bindAttributes i r = .ok { i with attributes := a } ∧
      Dict.find? a x = Attributes.joined (texts.map bindingValue) := by
  let changes := texts.map fun t => Attributes.Change.append x (bindingValue t)
  have happend : appendAll i r.bindings = .ok { i with attributes := Attributes.after changes } := by
    rw [appendAll_eq, hb, List.map_map, Instance.changes_any hany, hi]
    rfl
  refine ⟨Attributes.after changes, ?_, ?_⟩
  · rw [bindAttributes, hr]
    exact congrArg (Except.mapError AttributeError.message) happend
  · rw [Attributes.find?_after, given_texts]

/-- What comes of a request whose render gives a text and tells nothing. -/
theorem renderFound_text {native : Group} {p : Program} {r : RenderRequest} {i : Instance} {text : String}
    (hbind : bindAttributes (.ofProgram g native p none) r = .ok i) (hjson : r.json = false)
    (hrender : ∀ interpreter : Interpreter, interpreter.render i = pure text) (hw : w.delivered = #[]) :
    ∃ table, (renderFound g r native p).run w =
      ({ code := ExitCode.ok.value, output := text ++ "\n", notices := if r.trace then [.text table] else [] }, w) := by
  have hreceived : w.received = [] := by rw [Workspace.received, hw]; rfl
  have hrender (interpreter : Interpreter) : (interpreter.render i).run w = (text, w) := by
    rw [hrender]
    rfl
  have hrendered (retain : Bool) : (({} : Interpreter).final retain none i w).sink.text = text ∧
      (({} : Interpreter).final retain none i w).workspace = w :=
    Prod.ext_iff.mp (hrender { retain })
  have hrun {m : Machine} (hm : ({} : Interpreter).final r.trace none i w = m) : (renderFound g r native p).run w =
      ({ code := codeFor (m.workspace.received.map Prod.snd), output := m.sink.text ++ "\n",
         notices := (if r.trace then [.text (Table.ofTrace ⟨m.sink.text, m.frames⟩).display] else []) ++
           reports g (m.workspace.received.map Prod.snd) }, m.workspace) := by
    subst hm
    obtain ⟨template, attributes, bindings, json, trace⟩ := r
    cases hjson
    rw [renderFound, hbind]
    cases trace <;> rfl
  obtain ⟨htext, hworkspace⟩ := hrendered r.trace
  have hrun := hrun rfl
  rw [htext, hworkspace, hreceived, List.map_nil, reports, List.map_nil, List.append_nil] at hrun
  exact ⟨_, hrun⟩

theorem forall₂_bindingText (texts : List String) : List.Forall₂ Decimal.Normalized texts (texts.map bindingText) :=
  List.forall₂_map_right_iff.mpr (List.forall₂_same.mpr fun _ _ => Decimal.normalized_iff.mpr rfl)

/-- What comes of a render of a template of a directory that only writes an attribute, which is given some texts. -/
theorem render_attribute (hload : (Group.load path listener (.ok files)).run .empty = (.ok g, w)) (hx : StandsAlone x)
    {r : RenderRequest} (hdefines : g.Defines r.template ("<" ++ x ++ ">")) (hattributes : r.attributes = none)
    {texts : List String} (hbindings : r.bindings = texts.map fun t => (x, t)) (hjson : r.json = false) :
    ∃ table, ((render path (.ok files) r).run .empty).1 =
      { code := ExitCode.ok.value
        output := String.join (texts.map bindingText) ++ "\n"
        notices := if r.trace then [.text table] else [] } := by
  obtain ⟨reading⟩ := Reading.nonempty
  obtain ⟨cases, hg⟩ := Group.Loaded.of_load hload
  obtain ⟨hrenderers, -⟩ := Group.load_defines hload
  obtain ⟨p, place, w', hlookup, hany, hshows, hw'⟩ := lookup_attribute hg hdefines hx reading
  have hopen : (Instance.ofProgram g g p none).program.formals = .any := hany
  obtain ⟨a, hbind, ha⟩ := bindAttributes_texts hopen rfl hattributes hbindings
  have hrender (i : Interpreter) : i.render { Instance.ofProgram g g p none with attributes := a } =
      pure (String.join (texts.map bindingText)) := by
    refine i.render_plains hshows rfl (fun kind => Group.renderer?_lone hg.imports hrenderers kind) ?_ ?_ ha
    · exact List.forall_mem_map.mpr fun t _ => (bindingValue_plain t).mono fun _ _ h => h.elim
    · exact List.forall₂_map_left_iff.mpr (List.forall₂_map_right_iff.mpr (List.forall₂_same.mpr fun t _ =>
        bindingValue_scalar? t))
  obtain ⟨table, hfound⟩ := renderFound_text hbind hjson hrender hw'
  refine ⟨table, ?_⟩
  rw [render, StateT.run_bind, hload]
  change (StateT.run (g.lookup r.template >>= _) w).1 = _
  rw [StateT.run_bind, hlookup]
  exact congrArg Prod.fst hfound

/-- Whole numbers are printed plainly, and all other texts as they are given. A render of a template that only writes an
attribute prints what is written for the texts that the attribute is given, one behind another. That is what was given if
and only if no text spells a number of 64 bits otherwise than plainly. -/
theorem attributes_printed (hload : (Group.load path listener (.ok files)).run .empty = (.ok g, w)) {f : TemplateFile}
    (hf : f ∈ files) (htemplate : f.template? = some template) (hcontent : f.content = .ok ("<" ++ x ++ ">"))
    (hx : StandsAlone x) (texts : List String) (trace : Bool) :
    let request : RenderRequest := { template, bindings := texts.map fun t => (x, t), trace }
    let result := ((render path (.ok files) request).run .empty).1
    CommandLine.read (CommandLine.renderArguments path template trace request.bindings) =
        .ok (path, .render request none) ∧
      (∃ written, List.Forall₂ Decimal.Normalized texts written ∧ result.output = String.join written ++ "\n") ∧
      result.code = ExitCode.ok.value ∧ (∃ table, result.notices = if trace then [.text table] else []) ∧
      (result.output = String.join texts ++ "\n" ↔
        ∀ t ∈ texts, ∀ k : Decimal.Numeral, k.IsInt64 → k.text = t → k.IsPlain) := by
  intro request result
  have hdefines : g.Defines request.template ("<" ++ x ++ ">") :=
    (Group.load_defines hload).2 f hf template _ htemplate hcontent
  obtain ⟨table, hrender⟩ := render_attribute hload hx hdefines rfl rfl rfl
  have hresult : result = _ := hrender
  have hwritten := forall₂_bindingText texts
  refine ⟨?_, ?_⟩
  · refine CommandLine.read_renderArguments path template trace request.bindings fun b hb => ?_
    obtain ⟨t, -, rfl⟩ := List.mem_map.mp hb
    exact not_mem_of_isName hx.isName (by decide)
  rw [hresult]
  refine ⟨⟨_, hwritten, rfl⟩, rfl, ⟨table, rfl⟩, ?_⟩
  change _ ++ _ = _ ↔ _
  rw [String.append_left_inj, Decimal.Normalized.join_eq_iff hwritten]
  exact forall₂_congr fun t _ => Decimal.Normalized.self_iff

theorem attributes_printed_page :
    let files : List TemplateFile := [⟨"page.st", .ok "<xs>"⟩, ⟨"site.st", .ok "<page()>"⟩]
    let texts := ["12", "-7", "+7", "4x", "9223372036854775808"]
    let request : RenderRequest := { template := "page", bindings := texts.map fun t => ("xs", t) }
    let result := ((render "pages" (.ok files) request).run .empty).1
    ∃ g w, (Group.load "pages" listener (.ok files)).run .empty = (.ok g, w) ∧ StandsAlone "xs" ∧
      CommandLine.read (CommandLine.renderArguments "pages" "page" false request.bindings) =
        .ok ("pages", .render request none) ∧
      (∃ written, List.Forall₂ Decimal.Normalized texts written ∧ result.output = String.join written ++ "\n") ∧
      result.code = ExitCode.ok.value ∧ result.notices = [] ∧
      (result.output = String.join texts ++ "\n" ↔
        ∀ t ∈ texts, ∀ k : Decimal.Numeral, k.IsInt64 → k.text = t → k.IsPlain) := by
  intro files texts request result
  have hsorted : TemplateFile.inOrder files = files := List.mergeSort_of_pairwise (by decide)
  have hok : ((Group.load "pages" listener (.ok files)).run .empty).1.isOk = true := by
    unfold Group.load
    dsimp only
    rw [hsorted]
    decide +kernel
  have hpage : (⟨"page.st", .ok "<xs>"⟩ : TemplateFile).template? = some "page" := by decide
  have hx : StandsAlone "xs" := ⟨by decide, by decide, by decide⟩
  cases hload : (Group.load "pages" listener (.ok files)).run .empty with
  | mk loaded w =>
    rw [hload] at hok
    cases loaded with
    | error e => cases hok
    | ok g =>
      obtain ⟨hread, hwritten, hcode, ⟨_, hnotices⟩, hsame⟩ :=
        attributes_printed hload List.mem_cons_self hpage rfl hx texts false
      exact ⟨g, w, rfl, hx, hread, hwritten, hcode, hnotices, hsame⟩

/-- Numbers that are given with a plus sign, with zeros in front or as minus zero are printed otherwise than given, and the
tag of `true` prints no attribute. -/
theorem attributes_reprinted :
    let files : List TemplateFile := [⟨"t.st", .ok "<x>"⟩, ⟨"truth.st", .ok "<true>"⟩]
    let arguments := ["-d", ".", "render", "-t", "t", "-a", "x=+7", "-a", "x=007", "-a", "x=-0"]
    let request : RenderRequest := { template := "t", bindings := [("x", "+7"), ("x", "007"), ("x", "-0")] }
    let truth : RenderRequest := { template := "truth", bindings := [("true", "no")] }
    ((Group.load "." listener (.ok files)).run .empty).1.isOk = true ∧
      CommandLine.read arguments = .ok (".", .render request none) ∧
      ((render "." (.ok files) request).run .empty).1 = { code := ExitCode.ok.value, output := "770\n" } ∧
      String.join ["+7", "007", "-0"] ++ "\n" ≠ "770\n" ∧
      ((render "." (.ok files) truth).run .empty).1 = { code := ExitCode.ok.value, output := "true\n" } := by
  intro files arguments request truth
  have hsorted : TemplateFile.inOrder files = files := List.mergeSort_of_pairwise (by decide)
  have hload : ((Group.load "." listener (.ok files)).run .empty).1.isOk = true := by
    unfold Group.load
    dsimp only
    rw [hsorted]
    decide +kernel
  refine ⟨hload, ?_, ?_, by decide, ?_⟩
  · exact CommandLine.read_renderArguments "." "t" false request.bindings (by decide)
  all_goals
    unfold render Group.load
    dsimp only
    rw [hsorted]
    decide +kernel

end Command

end Stencil
