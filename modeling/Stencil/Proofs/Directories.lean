import Stencil.Proofs.Building
import Stencil.Proofs.Checking
import Stencil.Proofs.Pointing
/-! Renders of a directory that was loaded. What runs are its templates, with attributes that hold no templates, and what is
told is reported by its templates. -/

namespace Stencil

open Rendering

/-! ## Attributes of a request -/

namespace Value

theorem plain_of_number {n : Json.Number} {v : Value} (h : ofNumber? n = some v) : v.Plain := by
  have hfloat (h : n.toFloat?.map float = some v) : v.Plain := by
    obtain ⟨x, -, rfl⟩ := Option.map_eq_some_iff.mp h
    exact .float x
  unfold ofNumber? at h
  split at h
  · split at h
    · cases h
      exact .int _
    · exact hfloat h
  · exact hfloat h

mutual

/-- Documents hold no templates. -/
theorem plain_of_json : (j : Json) → {v : Value} → ofJson? j = some v → v.Plain
  | .null, _, h => by
      cases h
      exact .null
  | .bool b, _, h => by
      cases h
      exact .bool b
  | .number n, _, h => plain_of_number h
  | .string s, _, h => by
      cases h
      exact .text s
  | .array items, _, h => by
      obtain ⟨vs, hvs, rfl⟩ := Option.map_eq_some_iff.mp h
      exact .sequence (plain_of_items items hvs)
  | .object members, _, h => by
      obtain ⟨es, hes, rfl⟩ := Option.map_eq_some_iff.mp h
      exact .map (.ofList (plain_of_members members hes))

theorem plain_of_items : (js : List Json) → {vs : List Value} → ofItems? js = some vs →
    Items.Alike (fun _ _ => False) vs vs
  | [], _, h => by
      cases h
      exact .nil
  | j :: rest, _, h => by
      obtain ⟨v, hv, h⟩ := Option.bind_eq_some_iff.mp h
      obtain ⟨vs, hvs, h⟩ := Option.bind_eq_some_iff.mp h
      cases h
      exact .cons (plain_of_json j hv) (plain_of_items rest hvs)

theorem plain_of_members : (ms : List (String × Json)) → {es : List (String × Value)} → ofMembers? ms = some es →
    Entries.Alike (fun _ _ => False) es es
  | [], _, h => by
      cases h
      exact .nil
  | (key, j) :: rest, _, h => by
      obtain ⟨v, hv, h⟩ := Option.bind_eq_some_iff.mp h
      obtain ⟨es, hes, h⟩ := Option.bind_eq_some_iff.mp h
      cases h
      exact .cons key (plain_of_json j hv) (plain_of_members rest hes)

end

theorem plain_of_attributes {text : String} {entries : Dict Value} (h : readAttributes? text = some entries) :
    Entries.Alike (fun _ _ => False) entries entries := by
  unfold readAttributes? readJson? at h
  split at h
  · rename_i es he
    cases h
    obtain ⟨j, -, hj⟩ := Option.bind_eq_some_iff.mp he
    cases plain_of_json j hj with
    | map hes => exact hes
  · cases h

end Value

namespace Command

variable {start i i' : Instance}

theorem setAll_assigned : (es : List (String × Value)) → {i i' : Instance} → Entries.Alike (fun _ _ => False) es es →
    start.Assigned i → setAll i es = .ok i' → start.Assigned i'
  | [], _, _, _, h, hi => by
      cases hi
      exact h
  | (name, v) :: rest, i, _, .cons _ hv hes, h, hi => by
      rw [setAll] at hi
      cases hset : i.set name v with
      | error e =>
        rw [hset] at hi
        cases hi
      | ok j =>
        rw [hset] at hi
        exact setAll_assigned rest hes (.set h hv hset) hi

theorem bindingValue_plain (text : String) : (bindingValue text).Plain := by
  unfold bindingValue
  split
  · exact .int _
  · exact .text text

theorem appendAll_assigned : (bs : List (String × String)) → {i i' : Instance} → start.Assigned i →
    appendAll i bs = .ok i' → start.Assigned i'
  | [], _, _, h, hi => by
      cases hi
      exact h
  | (name, text) :: rest, i, _, h, hi => by
      rw [appendAll] at hi
      cases happ : i.append name (bindingValue text) with
      | error e =>
        rw [happ] at hi
        cases hi
      | ok j =>
        rw [happ] at hi
        exact appendAll_assigned rest (.append h (bindingValue_plain text) happ) hi

/-- A request gives an instance plain values. -/
theorem bindAttributes_assigned {r : RenderRequest} (h : bindAttributes start r = .ok i) : start.Assigned i := by
  have happend {j : Instance} (hj : start.Assigned j)
      (h : (appendAll j r.bindings).mapError AttributeError.message = .ok i) : start.Assigned i := by
    cases ha : appendAll j r.bindings with
    | error e =>
      rw [ha] at h
      cases h
    | ok k =>
      rw [ha] at h
      cases h
      exact appendAll_assigned r.bindings hj ha
  unfold bindAttributes at h
  split at h
  · exact happend .start h
  · cases h
  · split at h
    · cases h
    · rename_i entries hread
      cases hs : setAll start entries with
      | error e =>
        rw [hs] at h
        cases h
      | ok j =>
        rw [hs] at h
        exact happend (setAll_assigned entries (Value.plain_of_attributes hread) .start hs) h

end Command

/-! ## Templates of a directory -/

/-- A program belongs to a template that is defined: it is what the template compiles to, or a template without a name that
is written inside. -/
structure Program.Of (p : Program) (e : String × Definition) : Prop where
  written : p.toCode.Written
  source : p.source = e.2.source
  named : p.anonymous = false → p.name = e.1

theorem Definition.Makes.of {e : String × Definition} {p : Program} (h : e.2.Makes e.1 p) : p.Of e := by
  obtain ⟨directory, hc⟩ := h
  obtain ⟨_, _, _, _, hn, _, hs⟩ := Program.of_compile hc
  exact ⟨Program.written_of_compile hc, hs, fun _ => hn⟩

/-- A template without a name has the source of the one around it. -/
theorem Template.Written.inner_source {t : Template} (h : t.Written) {c : Code} (hc : c ∈ t.code.inner) :
    c.source = t.origin.source ∧ c.anonymous = true := by
  obtain ⟨l, hl, hc⟩ := List.mem_filterMap.mp hc
  rcases h.stands hl with hd | hb
  · obtain ⟨n, parameter, body, rfl, -⟩ := hd.inner c hc
    exact ⟨rfl, rfl⟩
  · obtain ⟨n, parameter, body, rfl, -⟩ := hb.inner c hc
    exact ⟨rfl, rfl⟩

theorem Program.Of.subprogram {e : String × Definition} {p q : Program} (h : p.Of e) {index : Nat}
    (hq : p.subprogram? index = some q) : q.Of e := by
  unfold subprogram? at hq
  split at hq
  · rename_i code hc
    cases hq
    have hm := List.mem_of_getElem? hc
    obtain ⟨t, ht, hcode⟩ := h.written
    have hm' : code ∈ t.code.inner := hcode ▸ hm
    obtain ⟨hs, ha⟩ := ht.inner_source hm'
    have hsource : t.origin.source = p.source := congrArg Code.source hcode
    exact ⟨ht.inner hm', hs.trans (hsource.trans h.source), fun hn => nomatch ha.symm.trans hn⟩
  · cases hq

/-- The template of an instance belongs to one of a group that looks everything up in itself. -/
def Instance.Of (g : Group) (i : Instance) : Prop := i.native = g ∧ ∃ e ∈ g.templates, i.program.Of e

variable {notes : List Making} {g : Group}

theorem Workspace.Filed.defineFiles (path : String) : {g : Group} → {w : Workspace} → {notes : List Making} →
    w.Filed notes → Group.Noted notes g.templates → (files : List TemplateFile) → {g' : Group} → {w' : Workspace} →
    (Group.defineFiles path g files).run w = (.ok g', w') → ∃ notes', w'.Filed notes' ∧ Group.Noted notes' g'.templates
  | g, w, notes, h, hg, [], g', w', hrun => by
      cases hrun
      exact ⟨notes, h, hg⟩
  | g, w, notes, h, hg, f :: rest, g', w', hrun => by
      rcases Group.defineFiles_cons hrun with ⟨-, hrun⟩ | ⟨name, source, k, _, -, -, hd, hrun⟩
      · exact h.defineFiles path hg rest hrun
      · obtain ⟨more, hw, hmade⟩ := h.define hg name .any source
        rw [hd] at hw hmade
        exact hw.defineFiles path (hmade k rfl).1 rest hrun

theorem Workspace.Filed.of_load {path : String} {files : Except String (List TemplateFile)} {w : Workspace}
    (hrun : (Group.load path Command.listener files).run .empty = (.ok g, w)) :
    ∃ notes, w.Filed notes ∧ Group.Noted notes g.templates := by
  cases files with
  | error reason => cases hrun
  | ok files =>
    have hempty : Workspace.empty.Filed [] := ⟨rfl, nofun⟩
    have hnone : Group.Noted [] ((Group.empty (Group.lastPart path)).listeningAt Command.listener).templates :=
      List.forall_mem_nil _
    exact hempty.defineFiles path hnone (TemplateFile.inOrder files) hrun

/-! ## Renders of a directory -/

/-- A group on its own: it imports nothing, and its definitions are noted. -/
structure Group.Lone (notes : List Making) (g : Group) : Prop where
  imports : g.imports = []
  noted : Group.Noted notes g.templates

theorem Group.Lone.tree (h : g.Lone notes) : g.tree = [g] := by
  rw [Group.tree_eq, h.imports]
  rfl

/-- Looking up a name gives one of the group's own templates. -/
theorem Group.Lone.resolveFound (h : g.Lone notes) {w : Workspace} (hw : w.Filed notes) (name : String) : ∃ r w',
    (Group.resolveFound name (closest? name g.tree)).run w = (r, w') ∧ w'.Filed notes ∧
      ∀ native p, r = .ok (native, p) → native = g ∧ ∃ e ∈ g.templates, p.Of e := by
  have hnoted : ∀ x ∈ g.tree, Group.Noted notes x.templates := by
    rw [h.tree]
    exact List.forall_mem_singleton.mpr h.noted
  obtain ⟨r, w', hr, hw', hmeans⟩ := hw.closest name hnoted
  refine ⟨r, w', hr, hw', fun native p he => ?_⟩
  subst he
  obtain ⟨d, hf, hmade⟩ := hmeans
  obtain ⟨hn, hd⟩ := mem_of_closest? hf
  rw [h.tree, List.mem_singleton] at hn
  subst hn
  exact ⟨rfl, (name, d), Dict.mem_of_find? hd, Definition.Makes.of (e := (name, d)) hmade⟩

/-- What was found in one of the templates of a group, if it comes of compiling. -/
def Diagnostic.FoundIn (g : Group) (d : Diagnostic) : Prop :=
  d.phase = .compile → ∃ e ∈ g.templates, (Compilation.of g.directory e).Finds d

theorem Group.Lone.knows (h : g.Lone notes) : Group.Knows (Diagnostic.FoundIn g) g.tree := by
  rw [h.tree]
  exact List.forall_mem_singleton.mpr fun e he d hd _ => ⟨e, he, hd⟩

/-- In a render of the group's templates only these run, and all that comes of compiling is found in them. -/
theorem Group.Lone.upheld (h : g.Lone notes) {settings : Settings} (hg : settings.group = g) (w₀ : Workspace) :
    Facts.Upheld (Instance.Of g) (fun w => w.Filed notes ∧ w₀.Adds (fun _ t => t.2.FoundIn g) w) settings where
  deliver w d hd hw := ⟨hw.1.of_slots rfl, hw.2.trans (.deliver w fun hp => by cases hd.symm.trans hp)⟩
  resolve name := by
    rw [Group.resolve, Group.find?_eq_closest?, hg]
    intro _ _ w hw
    have hw : w.Filed notes ∧ w₀.Adds (fun _ t => t.2.FoundIn g) w := hw
    have htold := Group.closest_delivers name h.knows w
    obtain ⟨r, w', hr, hw', hp⟩ := h.resolveFound hw.1 name
    rw [hr] at htold ⊢
    exact ⟨⟨hw', hw.2.trans htold⟩, hp⟩
  resolveInherited i hi name := by
    rw [Group.resolveInherited, Group.findInherited?, hi.1, h.imports]
    exact fun _ _ _ hw => ⟨hw, fun _ _ he => by cases he⟩
  enclosed i hi index program scope hp :=
    have ⟨hn, e, he, hof⟩ := hi
    ⟨hn, e, he, hof.subprogram hp⟩

/-- A diagnostic that a template reports: it is found when the template is compiled, or raised when the template, or one
without a name inside, runs. -/
inductive Diagnostic.Reported (g : Group) (d : Diagnostic) (e : String × Definition) : (anonymous : Bool) → Prop where
  | compiling (defined : e ∈ g.templates) (finds : (Compilation.of g.directory e).Finds d) : Reported g d e false
  | raised {settings : Settings} {bound : Instance} {start : Machine} {env : Env} {line : Line Nat Nat} {m k : Machine}
      (defined : e ∈ g.templates) (raised : d.Raised settings bound start env line m k) (of : env.program.Of e) :
      Reported g d e env.program.anonymous

/-- Only what is reported by the templates of a group was delivered between two states. -/
abbrev Group.Tells (g : Group) (w w' : Workspace) : Prop :=
  w.Adds (fun _ t => ∃ e anonymous, t.2.Reported g e anonymous) w'

/-- All that is delivered in a render of a template of the group is reported by its templates. -/
theorem Group.Lone.final_adds (h : g.Lone notes) {w : Workspace} (hw : w.Filed notes) {bound : Instance}
    (hg : bound.group = g) (hb : bound.All (Instance.Of g)) (i : Interpreter) (retain : Bool) (room : Option Nat) :
    g.Tells w (i.final retain room bound w).workspace := by
  let settings : Settings := ⟨i.depthLimit, bound.group, i.listener.getD bound.group.listener⟩
  let start : Machine := ⟨.empty retain, [], .output room, 0, w⟩
  have hup : Facts.Upheld (Instance.Of g) (fun v => v.Filed notes ∧ w.Adds (fun _ t => t.2.FoundIn g) v) settings :=
    h.upheld hg w
  have hstart := Facts.Upheld.start hb retain (.output room) 0
    (W := fun v => v.Filed notes ∧ w.Adds (fun _ t => t.2.FoundIn g) v) ⟨hw, .refl w⟩
  obtain ⟨visits, hrender, -⟩ := render_ends i retain room bound w
  have hfound := (hup.lasting.contract.invokes hrender hstart).workspace.2
  have hof : ∀ env m, Reached settings bound start (.running env m) → ∃ e ∈ g.templates, env.program.Of e := by
    intro env m hr
    obtain ⟨_, hall, -⟩ := hup.lasting.contract.reached hstart hr
    have hhere : env.here.bound.All (Instance.Of g) := hall env.here List.mem_cons_self
    exact hhere.bare.2
  refine ((i.told retain room bound w).and hfound).mono fun _ t _ _ ⟨ht, hf⟩ => ?_
  have hraised := ht.raised fun env m hr =>
    have ⟨_, _, hp⟩ := hof env m hr
    hp.written
  rcases hraised with ⟨c, hc⟩ | ⟨env, line, m, k, hr⟩
  · obtain ⟨e, he, hd⟩ := hf hc.phase
    exact ⟨e, false, .compiling he hd⟩
  · obtain ⟨e, he, hp⟩ := hof env m hr.carries.running
    exact ⟨e, _, .raised he hr hp⟩

end Stencil
