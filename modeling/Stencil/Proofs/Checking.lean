import Stencil.Command.Basic
import Stencil.Proofs.Coherence
import Stencil.Proofs.Reporting
/-! Checking a directory tells of each template what the other commands make of it: one is listed as failed
if and only if it can neither be rendered nor be listed. -/

namespace Stencil

/-! ## Directories -/

/-- A group that was loaded: nothing was compiled or delivered yet, and the definitions are in the order of
their names. -/
structure Group.Loaded (cases : List Compilation) (w : Workspace) (g : Group) : Prop where
  accounts : w.Accounts cases fun _ => []
  accounted : g.Accounted cases w Command.listener
  names : ∀ c ∈ cases, c.name ∈ Dict.keys g.templates
  imports : g.imports = []
  outcome : ∀ slot, w.outcome? slot = none
  delivered : w.delivered = #[]
  sorted : (Dict.keys g.templates).Pairwise (· < ·)

theorem Dict.sorted_insert {α : Type} {key : String} {value : α} : {d : Dict α} →
    (keys d).Pairwise (· < ·) → (keys (insert key value d)).Pairwise (· < ·)
  | [], _ => List.pairwise_singleton _ _
  | (k, v) :: rest, h => by
      obtain ⟨hk, hrest⟩ := List.pairwise_cons.mp h
      rw [insert]
      split
      · rename_i hlt
        refine List.pairwise_cons.mpr ⟨fun other ho => ?_, h⟩
        rcases List.mem_cons.mp ho with rfl | ho
        · exact hlt
        · exact String.lt_trans hlt (hk other ho)
      · split
        · rename_i he
          exact he ▸ h
        · rename_i hlt hne
          refine List.pairwise_cons.mpr ⟨fun other ho => ?_, sorted_insert hrest⟩
          rcases mem_keys_insert.mp ho with rfl | ho
          · exact Std.lt_of_le_of_ne (String.not_lt.mp hlt) (Ne.symm hne)
          · exact hk other ho

/-- Where keys are in order, each has one value. -/
theorem Dict.find?_of_mem {α : Type} {key : String} {value : α} : {d : Dict α} → (keys d).Pairwise (· < ·) →
    (key, value) ∈ d → find? d key = some value
  | (k, v) :: rest, h, hm => by
      obtain ⟨hk, hrest⟩ := List.pairwise_cons.mp h
      rw [find?, List.lookup_cons]
      rcases List.mem_cons.mp hm with he | hm
      · cases he
        rw [beq_self_eq_true]
      · have hne : key ≠ k := fun he => String.lt_irrefl k (hk k (he ▸ List.mem_map_of_mem hm))
        rw [beq_false_of_ne hne]
        exact find?_of_mem hrest hm

namespace Group

variable {cases : List Compilation} {w : Workspace} {g : Group}

/-- The group has a template of a name that does not compile. -/
def Faulty (g : Group) (template : String) : Prop :=
  ∃ d, (template, d) ∈ g.templates ∧ (Compilation.of g.directory (template, d)).found ≠ []

theorem Loaded.define (h : g.Loaded cases w) (name : String) (formals : Formals) (source : String) {g' : Group}
    {w' : Workspace} (hrun : (g.define name formals source).run w = (.ok g', w')) :
    ∃ cases', g'.Loaded cases' w' := by
  rw [define_run] at hrun
  split at hrun
  · cases hrun
  · rename_i hnone
    cases hrun
    obtain ⟨more, hw, hdelivered, ho, hg, hnames⟩ :=
      h.accounts.define h.accounted h.names (not_mem_keys hnone) formals source rfl
    exact ⟨_, hw, hg, hnames, h.imports, fun slot => (ho slot).trans (h.outcome slot),
      hdelivered.trans h.delivered, Dict.sorted_insert ((keys_renewEach w g.templates).symm ▸ h.sorted)⟩

/-- Where defining the templates of files succeeds, a file is passed over, or its template is defined and the others are
defined beside it. -/
theorem defineFiles_cons {path : String} {f : TemplateFile} {rest : List TemplateFile} {g' : Group} {w' : Workspace}
    (hrun : (Group.defineFiles path g (f :: rest)).run w = (.ok g', w')) :
    (f.template? = none ∧ (Group.defineFiles path g rest).run w = (.ok g', w')) ∨
      ∃ name source k v, f.template? = some name ∧ f.content = .ok source ∧
        (g.define name .any source).run w = (.ok k, v) ∧ (Group.defineFiles path k rest).run v = (.ok g', w') := by
  rw [Group.defineFiles] at hrun
  split at hrun
  · exact .inl ⟨‹_›, hrun⟩
  · cases hrun
  · rename_i name source hname hsource
    rw [StateT.run_bind] at hrun
    cases hd : (g.define name .any source).run w with
    | mk r v =>
      rw [hd] at hrun
      cases r with
      | error e => cases hrun
      | ok k => exact .inr ⟨name, source, k, v, hname, hsource, hd, hrun⟩

theorem Loaded.defineFiles (path : String) : {g : Group} → {w : Workspace} → {cases : List Compilation} →
    g.Loaded cases w → (files : List TemplateFile) → {g' : Group} → {w' : Workspace} →
    (Group.defineFiles path g files).run w = (.ok g', w') → ∃ cases', g'.Loaded cases' w'
  | g, w, cases, h, [], g', w', hrun => by
      cases hrun
      exact ⟨cases, h⟩
  | g, w, cases, h, f :: rest, g', w', hrun => by
      rcases defineFiles_cons hrun with ⟨-, hrun⟩ | ⟨name, source, _, _, -, -, hd, hrun⟩
      · exact h.defineFiles path rest hrun
      · obtain ⟨cases₁, h₁⟩ := h.define name .any source hd
        exact h₁.defineFiles path rest hrun

theorem Loaded.of_load {path : String} {files : Except String (List TemplateFile)}
    (hrun : (load path Command.listener files).run .empty = (.ok g, w)) : ∃ cases, g.Loaded cases w := by
  cases files with
  | error reason => cases hrun
  | ok files =>
    have hempty : ((empty (lastPart path)).listeningAt Command.listener).Loaded [] .empty :=
      ⟨.empty, ⟨rfl, nofun⟩, nofun, rfl, fun _ => rfl, rfl, .nil⟩
    exact hempty.defineFiles path (TemplateFile.inOrder files) hrun

end Group

/-! ## Commands -/

/-- A command stops since a template does not compile. -/
def CommandResult.Uncompiled (r : CommandResult) (template : String) : Prop :=
  r.code = ExitCode.dataError.value ∧ r.output = "" ∧
    ∃ notices, r.notices = notices ++ [.text (GroupError.compileFailed [template]).message]

namespace Command

variable {cases : List Compilation} {w : Workspace} {g : Group} {path : String}
  {files : Except String (List TemplateFile)}

theorem notUsable_run (g : Group) (e : GroupError) (w : Workspace) : (notUsable g e).run w =
    ({ code := ExitCode.dataError.value, notices := reports g (w.received.map Prod.snd) ++ [.text e.message] }, w) := by
  simp only [notUsable, collected, StateT.run_bind, StateT.run_get, pure_bind, StateT.run_pure]
  rfl

theorem head?_append {s : String} {c : Char} (h : s.toList.head? = some c) (t : String) :
    (s ++ t).toList.head? = some c := by
  rw [String.toList_append, List.head?_append, h]
  rfl

/-- Templates that do not compile are told apart from those that are not there. -/
theorem noSuchTemplate_message_ne (template name : String) (suggestions : List String) :
    (GroupError.noSuchTemplate name suggestions).message ≠ (GroupError.compileFailed [template]).message := by
  intro h
  have hn : (GroupError.noSuchTemplate name suggestions).message.toList.head? = some 'n' :=
    head?_append (head?_append (by decide) _) _
  have hf : (GroupError.compileFailed [template]).message.toList.head? = some 'f' :=
    head?_append (by decide) _
  rw [h, hf] at hn
  cases hn

theorem notUsable_uncompiled_iff (g : Group) (e : GroupError) (w : Workspace) (template : String) :
    ((notUsable g e).run w).1.Uncompiled template ↔ e.message = (GroupError.compileFailed [template]).message := by
  rw [notUsable_run]
  constructor
  · rintro ⟨-, -, notices, h⟩
    simpa using congrArg List.getLast? h
  · intro h
    exact ⟨rfl, rfl, _, by rw [h]⟩

/-- Looking up a template of a directory that was loaded fails if its compilation finds something. -/
theorem lookup_loaded (h : g.Loaded cases w) (template : String) : ∃ r w', (g.lookup template).run w = (r, w') ∧
    (g.Faulty template ∧ r = .error (.compileFailed [template]) ∨
      ¬g.Faulty template ∧
        ((∃ suggestions, r = .error (.noSuchTemplate template suggestions)) ∨ ∃ found, r = .ok found)) := by
  cases hd : Dict.find? g.templates template with
  | none =>
    have hfind : g.find? template = none := by
      have himports := h.imports
      cases g
      cases himports
      rw [Group.find?, show Dict.find? _ template = none from hd]
      rfl
    have hrun : (Group.resolveFound template (g.find? template)).run w = (.error .undefined, w) := by
      rw [hfind]
      rfl
    refine ⟨_, w, Group.lookup_run hrun, .inr ⟨fun ⟨d, he, _⟩ => ?_, .inl ⟨_, rfl⟩⟩⟩
    cases hd.symm.trans (Dict.find?_of_mem h.sorted he)
  | some d =>
    have he := Dict.mem_of_find? hd
    obtain ⟨o, w', new, hrun, -, -, -, hfound⟩ :=
      (Workspace.Advance.refl (l := listener) (G := (· = g)) h.accounts).compiled rfl h.accounted he
    have hfound := hfound (h.outcome _)
    refine ⟨_, w', Group.lookup_own hd hrun, ?_⟩
    cases o with
    | none => exact .inl ⟨⟨d, he, hfound.mp rfl⟩, rfl⟩
    | some p =>
      refine .inr ⟨fun ⟨d', he', hne⟩ => ?_, .inr ⟨_, rfl⟩⟩
      cases hd.symm.trans (Dict.find?_of_mem h.sorted he')
      cases hfound.mpr hne

/-- A command that looks up a template of a directory that was loaded, and stops only if there is none. -/
theorem uncompiled_iff (h : g.Loaded cases w) {template : String} {c : StateM Workspace CommandResult}
    {f : Group × Program → StateM Workspace CommandResult}
    (hrun : ∀ r w', (g.lookup template).run w = (r, w') → c.run .empty =
      match r with
      | .error e => (notUsable g e).run w'
      | .ok found => (f found).run w')
    (hf : ∀ found w', ¬((f found).run w').1.Uncompiled template) :
    (c.run .empty).1.Uncompiled template ↔ g.Faulty template := by
  obtain ⟨r, w', hlookup, hr⟩ := lookup_loaded h template
  rw [hrun r w' hlookup]
  rcases hr with ⟨hfaulty, rfl⟩ | ⟨hsound, ⟨suggestions, rfl⟩ | ⟨found, rfl⟩⟩
  · exact iff_of_true ((notUsable_uncompiled_iff ..).mpr rfl) hfaulty
  · exact iff_of_false (fun hu => noSuchTemplate_message_ne _ _ _ ((notUsable_uncompiled_iff ..).mp hu)) hsound
  · exact iff_of_false (hf found w') hsound

theorem append_newline_ne (s : String) : s ++ "\n" ≠ "" := by
  intro h
  have hlength := congrArg String.length h
  simp at hlength

theorem renderFound_not_uncompiled (g : Group) (r : RenderRequest) (native : Group) (program : Program)
    (w : Workspace) (template : String) : ¬((renderFound g r native program).run w).1.Uncompiled template := by
  unfold renderFound
  split
  · rintro ⟨hcode, -, -⟩
    cases hcode
  · rintro ⟨-, houtput, -⟩
    rw [StateT.run_bind] at houtput
    generalize (StateT.run _ w : Id ((String × Option Trace) × Workspace)) = rendered at houtput
    obtain ⟨⟨output, trace⟩, v⟩ := rendered
    cases hj : r.json <;> rw [hj] at houtput
    · exact append_newline_ne _ houtput
    · exact append_newline_ne _ houtput

section

variable (hload : (Group.load path listener files).run .empty = (.ok g, w))
include hload

theorem render_uncompiled_iff (h : g.Loaded cases w) (r : RenderRequest) :
    ((render path files r).run .empty).1.Uncompiled r.template ↔ g.Faulty r.template := by
  refine uncompiled_iff h (f := fun (native, program) => renderFound g r native program)
    (fun result w' hlookup => ?_) fun _ _ => renderFound_not_uncompiled _ _ _ _ _ _
  unfold render
  rw [StateT.run_bind, hload]
  change StateT.run (g.lookup r.template >>= _) w = _
  rw [StateT.run_bind, hlookup]
  cases result <;> rfl

theorem dump_uncompiled_iff (h : g.Loaded cases w) (r : DumpRequest) :
    ((dump path files r).run .empty).1.Uncompiled r.template ↔ g.Faulty r.template := by
  refine uncompiled_iff h (f := fun (_, program) => return {
    code := ExitCode.ok.value, output := if r.raw then program.listing else tables program.toCode })
    (fun result w' hlookup => ?_) fun _ _ hu => nomatch hu.1
  unfold dump
  rw [StateT.run_bind, hload]
  change StateT.run (g.lookup r.template >>= _) w = _
  rw [StateT.run_bind, hlookup]
  cases result <;> rfl

/-- What checking a directory that was loaded comes to. -/
theorem check_loaded (h : g.Loaded cases w) : ∃ result : CheckResult,
    (∀ r, ((check path files r).run .empty).1 = checked g result r) ∧
    (∀ template, template ∈ result.failed ↔ g.Faulty template) ∧ result.failed.Pairwise (· < ·) ∧
    (∀ template ∈ result.failed, ∃ d ∈ result.diagnostics, d.template = some template) ∧
    ∀ d ∈ result.diagnostics, d.kind.severity = .error ∧ ∃ template ∈ result.failed, d.template = some template := by
  obtain ⟨failed, w', new, hrun, hw, hnew, htold, hfailed⟩ :=
    Workspace.Advance.compileEach (G := (· = g)) rfl h.accounted (.refl h.accounts) g.templates
      (List.Subset.refl _)
  have hfailed := hfailed fun e _ => h.outcome _
  have hmem (template : String) : template ∈ failed ↔ g.Faulty template := by
    rw [hfailed]
    simp only [List.mem_map, List.mem_filter, decide_eq_true_eq]
    exact ⟨fun ⟨⟨_, d⟩, ⟨he, hd⟩, hn⟩ => hn ▸ ⟨d, he, hd⟩, fun ⟨d, he, hd⟩ => ⟨_, ⟨he, hd⟩, rfl⟩⟩
  -- all that was delivered is what compiling found
  have hdelivered : w'.delivered.toList = new := by
    rw [hw.delivered, h.delivered]
    rfl
  have hreceived (d : Diagnostic) : d ∈ w'.received.map Prod.snd ↔ (listener, d) ∈ new := by
    rw [Workspace.received, hdelivered, List.map_filterMap, List.mem_filterMap]
    constructor
    · rintro ⟨t, ht, hd⟩
      obtain ⟨e, -, d', -, rfl⟩ := hnew t ht
      cases hd
      exact ht
    · intro hd
      exact ⟨_, hd, rfl⟩
  refine ⟨⟨g.templates.length, failed, w'.received.map Prod.snd⟩, fun r => ?_, hmem, ?_, fun template ht => ?_,
    fun d hd => ?_⟩
  · unfold check
    rw [StateT.run_bind, hload]
    change (StateT.run (g.compileEach g.templates >>= _) w).1 = _
    rw [StateT.run_bind, hrun]
    rfl
  · rw [hfailed]
    exact h.sorted.sublist (List.filter_sublist.map Prod.fst)
  · obtain ⟨d, hd⟩ := htold template ht
    obtain ⟨hm, -, ht⟩ := mem_told hd
    exact ⟨d, (hreceived d).mpr hm, ht⟩
  · obtain ⟨e, he, d', hd', heq⟩ := hnew _ ((hreceived d).mp hd)
    cases heq
    have hfinds := Compilation.finds_of_mem hd'
    exact ⟨hfinds.severity, e.1, (hmem _).mpr ⟨e.2, he, List.ne_nil_of_mem hd'⟩, hfinds.template⟩

end

/-- The exit code says whether an error was reported. -/
theorem checked_code (g : Group) (result : CheckResult) (r : CheckRequest) :
    (checked g result r).code = codeFor result.diagnostics := by
  unfold checked
  dsimp only
  split <;> rfl

theorem codeFor_eq_iff (ds : List Diagnostic) :
    codeFor ds = ExitCode.dataError.value ↔ ∃ d ∈ ds, d.kind.severity = .error := by
  unfold codeFor
  split
  · simp_all
  · simp_all [ExitCode.value]

/-- Checking agrees with the other commands. It tells that templates are at fault if and only if it lists one
as failed. It lists, in order, exactly those that a render, and a listing, stops at because they do not
compile, and reports an error of each, and of no other. -/
theorem check_agrees (hload : (Group.load path listener files).run .empty = (.ok g, w)) :
    ∃ result : CheckResult,
      (∀ r, ((check path files r).run .empty).1 = checked g result r ∧
        ((checked g result r).code = ExitCode.dataError.value ↔ result.failed ≠ [])) ∧
      result.failed.Pairwise (· < ·) ∧
      (∀ r : RenderRequest,
        r.template ∈ result.failed ↔ ((render path files r).run .empty).1.Uncompiled r.template) ∧
      (∀ r : DumpRequest,
        r.template ∈ result.failed ↔ ((dump path files r).run .empty).1.Uncompiled r.template) ∧
      (∀ template ∈ result.failed, ∃ d ∈ result.diagnostics,
        d.kind.severity = .error ∧ d.template = some template) ∧
      ∀ d ∈ result.diagnostics, ∃ template ∈ result.failed, d.template = some template := by
  obtain ⟨cases, h⟩ := Group.Loaded.of_load hload
  obtain ⟨result, hrun, hmem, hsorted, htold, hd⟩ := check_loaded hload h
  refine ⟨result, fun r => ⟨hrun r, ?_⟩, hsorted, fun r => ?_, fun r => ?_, fun template ht => ?_,
    fun d hm => (hd d hm).2⟩
  · rw [checked_code, codeFor_eq_iff]
    constructor
    · rintro ⟨d, hm, -⟩
      obtain ⟨template, ht, -⟩ := (hd d hm).2
      exact List.ne_nil_of_mem ht
    · intro hne
      obtain ⟨template, ht⟩ := List.exists_mem_of_ne_nil _ hne
      obtain ⟨d, hm, -⟩ := htold template ht
      exact ⟨d, hm, (hd d hm).1⟩
  · exact (hmem _).trans (render_uncompiled_iff hload h r).symm
  · exact (hmem _).trans (dump_uncompiled_iff hload h r).symm
  · obtain ⟨d, hm, hdt⟩ := htold template ht
    exact ⟨d, hm, (hd d hm).1, hdt⟩

theorem check_agrees_draft :
    let files : List TemplateFile := [⟨"page.st", .ok "<missing()>"⟩, ⟨"site.st", .ok "<page()>"⟩]
    ∃ g w result, (Group.load "draft" listener (.ok files)).run .empty = (.ok g, w) ∧
      ((check "draft" (.ok files) {}).run .empty).1 = checked g result {} ∧
      (checked g result {}).code = ExitCode.dataError.value ∧ "page" ∈ result.failed ∧ "site" ∉ result.failed := by
  intro files
  have hsorted : TemplateFile.inOrder files = files := List.mergeSort_of_pairwise (by decide)
  have hok : ((Group.load "draft" listener (.ok files)).run .empty).1.isOk = true := by
    unfold Group.load
    dsimp only
    rw [hsorted]
    decide +kernel
  have hstops : let r := ((dump "draft" (.ok files) { template := "page" }).run .empty).1
      r.code = ExitCode.dataError.value ∧ r.output = "" ∧
        r.notices.getLast? = some (.text (GroupError.compileFailed ["page"]).message) := by
    unfold dump Group.load
    dsimp only
    rw [hsorted]
    decide +kernel
  have hlists : ((dump "draft" (.ok files) { template := "site" }).run .empty).1.code = ExitCode.ok.value := by
    unfold dump Group.load
    dsimp only
    rw [hsorted]
    decide +kernel
  cases hload : (Group.load "draft" listener (.ok files)).run .empty with
  | mk loaded w =>
    rw [hload] at hok
    cases loaded with
    | error e => cases hok
    | ok g =>
      obtain ⟨result, hcheck, -, -, hdump, -, -⟩ := check_agrees hload
      have hpage : "page" ∈ result.failed :=
        (hdump { template := "page" }).mpr ⟨hstops.1, hstops.2.1, List.getLast?_eq_some_iff.mp hstops.2.2⟩
      have hsite : "site" ∉ result.failed := fun hm =>
        nomatch hlists.symm.trans ((hdump { template := "site" }).mp hm).1
      exact ⟨g, w, result, rfl, (hcheck _).1, (hcheck _).2.mpr (List.ne_nil_of_mem hpage), hpage, hsite⟩

end Command

end Stencil
