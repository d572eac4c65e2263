import Stencil.Proofs.Directories
/-! What the reports of commands point at. A report shows the source of the template in which its diagnostic is located, and
its labels lie there. Templates without a name have no source of their own to show. -/

namespace Stencil

variable {g : Group}

/-! ## Reports -/

namespace Diagnostic.Reported

variable {d : Diagnostic} {e : String × Definition} {anonymous : Bool}

theorem defined (h : d.Reported g e anonymous) : e ∈ g.templates := by
  cases h with
  | compiling defined _ => exact defined
  | raised defined _ _ => exact defined

/-- It is reported under the name of the template, unless one without a name reports it. -/
theorem template (h : d.Reported g e anonymous) : ∃ name, d.template = some name ∧ (anonymous = false → name = e.1) := by
  cases h with
  | compiling _ finds => exact ⟨e.1, finds.template, fun _ => rfl⟩
  | raised _ raised of => exact ⟨_, raised.template, of.named⟩

/-- It is located in the source of the template. -/
theorem located (h : d.Reported g e anonymous) :
    ∀ l ∈ d.location, ∃ offset length, l = .inSource e.2.source offset length := by
  intro l hl
  cases h with
  | compiling _ finds =>
    cases finds with
    | unreadable | inBody =>
      cases hl
      exact ⟨_, _, rfl⟩
    | unreadableDefault | inDefault => cases hl
  | @raised _ _ _ _ line _ _ _ raised of =>
    rw [← of.source]
    by_cases ht : ∃ text, line.instr = .text text
    · obtain ⟨text, ht⟩ := ht
      exact ⟨_, _, raised.ends text ht l hl⟩
    · obtain ⟨_, _, _, -, -, -, -, hpoints⟩ := raised.points (fun text he => ht ⟨text, he⟩) l hl
      exact ⟨_, _, hpoints.located⟩

end Diagnostic.Reported

namespace Report

variable {d : Diagnostic} {source : String}

/-- A report without a source points nowhere. -/
theorem labels_eq_nil (h : d.template.bind g.sourceOf? = none) : (ofDiagnostic g d).labels = [] := by
  simp only [ofDiagnostic, h]
  cases d.location <;> rfl

theorem sourceText_eq (h : d.template.bind g.sourceOf? = some source) :
    (ofDiagnostic g d).sourceText = some source := by
  simp only [ofDiagnostic, h, Option.getD_some]

/-- Labels lie in the source that is shown. -/
theorem label_inside (h : d.template.bind g.sourceOf? = some source) {label : Label}
    (hlabel : label ∈ (ofDiagnostic g d).labels) : ∃ l ∈ d.location,
      label.offset = min l.offset source.utf8ByteSize ∧ label.offset + label.length ≤ source.utf8ByteSize := by
  simp only [ofDiagnostic, h, Option.getD_some] at hlabel
  split at hlabel
  · cases hlabel
  · rename_i l hl
    split at hlabel
    · cases hlabel
    · obtain rfl := List.mem_singleton.mp hlabel
      refine ⟨l, hl, rfl, ?_⟩
      dsimp only
      omega

/-- A report shows the source that its diagnostic is located in, unless a template without a name reports it, and its labels
lie there at the location. -/
structure Faithful (x : Report) (d : Diagnostic) (source : String) (anonymous : Bool) : Prop where
  attached : anonymous = false → x.sourceText = some source
  hidden : anonymous = true → x.labels = []
  inside : ∀ label ∈ x.labels, x.sourceText = some source ∧ (∃ l ∈ d.location, label.offset = l.offset) ∧
    label.offset + label.length ≤ source.utf8ByteSize

end Report

theorem Diagnostic.Reported.faithful {d : Diagnostic} {e : String × Definition} {anonymous : Bool}
    (h : d.Reported g e anonymous) (hsorted : (Dict.keys g.templates).Pairwise (· < ·))
    (hname : anonymous = true → d.template.bind g.sourceOf? = none) :
    (Report.ofDiagnostic g d).Faithful d e.2.source anonymous := by
  cases anonymous with
  | true =>
    have hnone := Report.labels_eq_nil (hname rfl)
    exact ⟨nofun, fun _ => hnone, fun _ hl => absurd (hnone ▸ hl) List.not_mem_nil⟩
  | false =>
    obtain ⟨name, ht, hn⟩ := h.template
    have hsource : d.template.bind g.sourceOf? = some e.2.source := by
      rw [ht, Option.bind_some, hn rfl, Group.sourceOf?, Group.find?_eq_closest?,
        Group.closest?_own (Dict.find?_of_mem hsorted h.defined)]
      rfl
    refine ⟨fun _ => Report.sourceText_eq hsource, nofun, fun label hl => ⟨Report.sourceText_eq hsource, ?_⟩⟩
    obtain ⟨l, hl, ho, hlen⟩ := Report.label_inside hsource hl
    obtain ⟨offset, length, rfl⟩ := h.located l hl
    exact ⟨⟨_, hl, by rw [ho, Location.inSource]; exact Nat.min_eq_left (Nat.min_le_right ..)⟩, hlen⟩

/-- A report of a command says that attributes cannot be used, or is about a diagnostic of a template. Its labels lie in the
text that it shows, and there are none if the group has no template of the name that the diagnostic is reported under.
It points into the source of the template, unless a template without a name reports the diagnostic and the group has a
template of the name that was made for it. -/
inductive Report.Sound (g : Group) (x : Report) : Prop where
  | attributes (is : x = { message := x.message })
  | diagnostic {d : Diagnostic} {e : String × Definition} {anonymous : Bool} (is : x = .ofDiagnostic g d)
      (reported : d.Reported g e anonymous)
      (located : ∀ l ∈ d.location, ∃ offset length, l = .inSource e.2.source offset length)
      (undefined : d.template.bind g.sourceOf? = none → x.labels = [])
      (within : ∀ label ∈ x.labels, ∃ text, x.sourceText = some text ∧ label.offset + label.length ≤ text.utf8ByteSize)
      (points : x.Faithful d e.2.source anonymous ∨ anonymous = true ∧ ∃ name ∈ d.template, g.contains name = true)

theorem Diagnostic.Reported.sound {d : Diagnostic} {e : String × Definition} {anonymous : Bool}
    (h : d.Reported g e anonymous) (hsorted : (Dict.keys g.templates).Pairwise (· < ·)) :
    (Report.ofDiagnostic g d).Sound g := by
  cases hs : d.template.bind g.sourceOf? with
  | none =>
    have hnone := Report.labels_eq_nil hs
    exact .diagnostic rfl h h.located (fun _ => hnone) (fun _ hl => absurd (hnone ▸ hl) List.not_mem_nil)
      (.inl (h.faithful hsorted fun _ => hs))
  | some source =>
    refine .diagnostic rfl h h.located Report.labels_eq_nil (fun label hl => ?_) ?_
    · obtain ⟨_, -, -, hwithin⟩ := Report.label_inside hs hl
      exact ⟨source, Report.sourceText_eq hs, hwithin⟩
    cases anonymous with
    | false => exact .inl (h.faithful hsorted nofun)
    | true =>
      obtain ⟨name, ht, hn⟩ := Option.bind_eq_some_iff.mp hs
      refine .inr ⟨rfl, name, ht, ?_⟩
      obtain ⟨found, hf, -⟩ := Option.map_eq_some_iff.mp hn
      rw [Group.contains, hf]
      rfl

theorem Workspace.mem_delivered {w : Workspace} {d : Diagnostic} (h : d ∈ w.received.map Prod.snd) :
    ∃ l, (l, d) ∈ w.delivered := by
  obtain ⟨⟨name, _⟩, hr, rfl⟩ := List.mem_map.mp h
  obtain ⟨⟨l, d⟩, ht, hlistener⟩ := List.mem_filterMap.mp hr
  cases l with
  | log => cases hlistener
  | named receiver =>
    cases hlistener
    exact ⟨_, Array.mem_toList_iff.mp ht⟩

namespace Command

variable {path : String} {files : Except String (List TemplateFile)} {cases : List Compilation} {w w' : Workspace}

theorem reports_sound (h : g.Loaded cases w) (hw : g.Tells w w') :
    ∀ x, .report x ∈ reports g (w'.received.map Prod.snd) → x.Sound g := by
  intro x hx
  obtain ⟨d, hd, he⟩ := List.mem_map.mp hx
  cases he
  obtain ⟨l, ht⟩ := Workspace.mem_delivered hd
  obtain ⟨more, hmore, hP⟩ := hw
  rw [hmore, h.delivered, Array.empty_append] at ht
  obtain ⟨n, hn⟩ := Array.getElem?_of_mem ht
  obtain ⟨e, anonymous, hreported⟩ := hP n _ hn
  exact hreported.sound h.sorted

section

variable {notes : List Making} (hlone : g.Lone notes)
include hlone

/-- Looking up a template of the group. -/
theorem lookup_lone (hfiled : w.Filed notes) (name : String) : ∃ r w', (g.lookup name).run w = (r, w') ∧
    w'.Filed notes ∧ g.Tells w w' ∧ ∀ native p, r = .ok (native, p) → native = g ∧ ∃ e ∈ g.templates, p.Of e := by
  have htold : g.Tells w ((g.lookup name).run w).2 := by
    refine g.lookup_delivers name (P := fun d => ∃ e anonymous, d.Reported g e anonymous) ?_ w
    rw [hlone.tree]
    exact List.forall_mem_singleton.mpr fun e he d hd => ⟨e, false, .compiling he hd⟩
  obtain ⟨r, w', hr, hw', hp⟩ := hlone.resolveFound hfiled name
  rw [← Group.find?_eq_closest?] at hr
  have hrun := Group.lookup_run hr
  rw [hrun] at htold
  refine ⟨_, w', hrun, hw', htold, fun native p he => ?_⟩
  cases r with
  | error e => cases he
  | ok found =>
    cases he
    exact hp _ _ rfl

/-- A command that looks up a template of a directory that was loaded reports what is sound if it does so then. -/
theorem looking_sound (h : g.Loaded cases w) (hfiled : w.Filed notes) (template : String)
    {c : StateM Workspace CommandResult} {f : Group × Program → StateM Workspace CommandResult}
    (hrun : ∀ r w', (g.lookup template).run w = (r, w') → c.run .empty =
      match r with
      | .error e => (notUsable g e).run w'
      | .ok found => (f found).run w')
    (hf : ∀ v, v.Filed notes → g.Tells w v → ∀ program, (∃ e ∈ g.templates, program.Of e) →
      ∀ x, .report x ∈ ((f (g, program)).run v).1.notices → x.Sound g) :
    ∀ x, .report x ∈ (c.run .empty).1.notices → x.Sound g := by
  intro x hx
  obtain ⟨r, v, hlookup, hv, htold, hmade⟩ := lookup_lone hlone hfiled template
  rw [hrun r v hlookup] at hx
  cases r with
  | error e =>
    dsimp only at hx
    rw [notUsable_run] at hx
    rcases List.mem_append.mp hx with hx | hx
    · exact reports_sound h htold x hx
    · cases List.mem_singleton.mp hx
  | ok found =>
    obtain ⟨native, program⟩ := found
    obtain ⟨rfl, hp⟩ := hmade native program rfl
    exact hf v hv htold program hp x hx

/-- What a render reports of a template of the group. -/
theorem renderFound_sound (h : g.Loaded cases w) {v : Workspace} (hv : v.Filed notes) (htold : g.Tells w v)
    (r : RenderRequest) {program : Program} (hp : ∃ e ∈ g.templates, program.Of e) :
    ∀ x, .report x ∈ ((renderFound g r g program).run v).1.notices → x.Sound g := by
  intro x hx
  unfold renderFound at hx
  split at hx
  · cases List.mem_singleton.mp hx
    exact .attributes rfl
  · rename_i bound hbound
    obtain ⟨hbare, hplain⟩ := (bindAttributes_assigned hbound).plain rfl
    have hgroup : bound.group = g := by rw [hbare]; rfl
    have hall : bound.All (Instance.Of g) := by
      refine .mk ⟨rfl, ?_⟩ (hplain.mono fun _ _ => False.elim)
      rw [hbare]
      exact ⟨rfl, hp⟩
    have hfinal (retain : Bool) : g.Tells w (Interpreter.final {} retain none bound v).workspace :=
      htold.trans (hlone.final_adds hv hgroup hall {} retain none)
    rw [StateT.run_bind] at hx
    generalize hrun : (StateT.run _ v : Id ((String × Option Trace) × Workspace)) = rendered at hx
    obtain ⟨⟨output, trace⟩, k⟩ := rendered
    have hk : g.Tells w k := by
      split at hrun <;> cases hrun <;> exact hfinal _
    cases hj : r.json with
    | true =>
      rw [hj] at hx
      cases hx
    | false =>
      rw [hj] at hx
      rcases List.mem_append.mp hx with hx | hx
      · obtain ⟨_, -, he⟩ := Option.map_eq_some_iff.mp (Option.mem_toList.mp hx)
        cases he
      · exact reports_sound h hk x hx

theorem render_sound (hload : (Group.load path listener files).run .empty = (.ok g, w)) (h : g.Loaded cases w)
    (hfiled : w.Filed notes) (r : RenderRequest) :
    ∀ x, .report x ∈ ((render path files r).run .empty).1.notices → x.Sound g := by
  refine looking_sound hlone h hfiled r.template (f := fun (native, program) => renderFound g r native program)
    (fun result v hlookup => ?_) fun v hv htold program hp => renderFound_sound hlone h hv htold r hp
  unfold render
  rw [StateT.run_bind, hload]
  change StateT.run (g.lookup r.template >>= _) w = _
  rw [StateT.run_bind, hlookup]
  cases result <;> rfl

theorem dump_sound (hload : (Group.load path listener files).run .empty = (.ok g, w)) (h : g.Loaded cases w)
    (hfiled : w.Filed notes) (r : DumpRequest) :
    ∀ x, .report x ∈ ((dump path files r).run .empty).1.notices → x.Sound g := by
  refine looking_sound hlone h hfiled r.template (f := fun (_, program) => return {
    code := ExitCode.ok.value, output := if r.raw then program.listing else tables program.toCode })
    (fun result v hlookup => ?_) fun v _ _ program _ x hx => nomatch hx
  unfold dump
  rw [StateT.run_bind, hload]
  change StateT.run (g.lookup r.template >>= _) w = _
  rw [StateT.run_bind, hlookup]
  cases result <;> rfl

end

theorem check_sound (hload : (Group.load path listener files).run .empty = (.ok g, w)) (h : g.Loaded cases w)
    (r : CheckRequest) : ∀ x, .report x ∈ ((check path files r).run .empty).1.notices → x.Sound g := by
  intro x hx
  have hrun : ((check path files r).run .empty).1 =
      checked g ⟨g.templates.length, ((g.compileEach g.templates).run w).1,
        ((g.compileEach g.templates).run w).2.received.map Prod.snd⟩ r := by
    unfold check
    rw [StateT.run_bind, hload]
    rfl
  have htold : g.Tells w ((g.compileEach g.templates).run w).2 :=
    g.compileEach_delivers (P := fun d => ∃ e anonymous, d.Reported g e anonymous) g.templates
      (fun e he d hd => ⟨e, false, .compiling he hd⟩) w
  rw [hrun, checked] at hx
  dsimp only at hx
  split at hx
  · cases hx
  · exact reports_sound h htold x hx

/-- What a command answers about the templates in the files of a directory. -/
inductive Answers (path : String) (files : Except String (List TemplateFile)) : CommandResult → Prop where
  | render (r : RenderRequest) : Answers path files ((render path files r).run .empty).1
  | check (r : CheckRequest) : Answers path files ((check path files r).run .empty).1
  | dump (r : DumpRequest) : Answers path files ((dump path files r).run .empty).1

/-- Reports point into the source of the template at fault. Whatever a command reports of a directory that loads is about a
diagnostic of one of its templates, located in the source of that template. The report shows this source and has its labels
there, at the location, and has no labels if a template without a name reports the diagnostic. What a template without
a name reports points elsewhere only if the directory has a template of the very name that was made for it. -/
theorem labels_at_home (hload : (Group.load path listener files).run .empty = (.ok g, w)) {r : CommandResult}
    (hr : Answers path files r) {x : Report} (hx : .report x ∈ r.notices) : x.Sound g := by
  obtain ⟨_, h⟩ := Group.Loaded.of_load hload
  obtain ⟨notes, hfiled, hnoted⟩ := Workspace.Filed.of_load hload
  have hlone : g.Lone notes := ⟨h.imports, hnoted⟩
  cases hr with
  | render r => exact render_sound hlone hload h hfiled r x hx
  | check r => exact check_sound hload h r x hx
  | dump r => exact dump_sound hlone hload h hfiled r x hx

theorem labels_at_home_page :
    let files : List TemplateFile := [⟨"page.st", .ok "Dear <(\"Ter\").first>"⟩]
    let r := ((render "letters" (.ok files) { template := "page" }).run .empty).1
    ∃ g w x, (Group.load "letters" listener (.ok files)).run .empty = (.ok g, w) ∧ .report x ∈ r.notices ∧
      x.labels = [⟨6, 13, "NoSuchProperty"⟩] ∧ x.Sound g := by
  intro files r
  have hok : ((Group.load "letters" listener (.ok files)).run .empty).1.isOk = true := by decide +kernel
  have hreport : r.notices.any (fun n => match n with
      | .report x => x.labels == [⟨6, 13, "NoSuchProperty"⟩]
      | .text _ => false) = true := by decide +kernel
  obtain ⟨n, hn, hlabels⟩ := List.any_eq_true.mp hreport
  cases hload : (Group.load "letters" listener (.ok files)).run .empty with
  | mk loaded w =>
    rw [hload] at hok
    cases loaded with
    | error e => cases hok
    | ok g =>
      cases n with
      | text _ => cases hlabels
      | report x => exact ⟨g, w, x, rfl, hn, eq_of_beq hlabels, labels_at_home hload (.render _) hn⟩

end Command

end Stencil
