import Stencil.Proofs.Delivering
import Stencil.Proofs.Evaluating
import Stencil.Proofs.Homes
import Stencil.Proofs.Regions
/-! Diagnostics point at what is wrong. Those of compilations are located where a syntax error or a construct with a problem
is, and those of renders where the construct begins that is carried out. -/

namespace Stencil

open Rendering

/-! ## Compiling -/

/-- Where a diagnostic of a compilation is located: nowhere, or where the source cannot be read, or where the construct
begins that it is about. -/
inductive Compilation.Places (c : Compilation) (d : Diagnostic) : Prop where
  | nowhere (h : d.location = none)
  | unreadable {e : SyntaxError} (failed : Element.readAll c.source = .error e) (located : d.location = some e.location)
      (place : ∃ before, Location.IsPlace c.source e.location.offset before) (length : e.location.length = 1)
  | construct {x : Construct} {p : Problem} {l : Location} (of : x.Of (Node.In c.source)) (raises : x.Raises p)
      (about : d = { p.diagnostic c.name with location := some l }) (points : l.Points c.source x)

theorem Compilation.Finds.places {c : Compilation} {d : Diagnostic} (h : c.Finds d) : c.Places d := by
  cases h with
  | @unreadable e h =>
    obtain ⟨before, hp, hl⟩ := Reader.run_failure Reader.template_ahead h
    refine .unreadable h (congrArg some hl.symm) ⟨before, hp⟩ ?_
    rw [hl, hp.inSource_eq]
  | unreadableDefault => exact .nowhere rfl
  | inDefault => exact .nowhere rfl
  | @inBody body f h hf =>
    obtain ⟨x, hx, hr, hs⟩ := Element.findingsAll_stand (Node.closed_in c.source) _ body
      (fun y hy => ⟨body, h, y, hy, [], .self _⟩) f hf
    refine .construct hx hr rfl ?_
    rw [← hs]
    exact hx.points

/-! ## Rendering -/

section

variable {settings : Settings} {bound : Instance} {start : Machine}

/-- A diagnostic that an instance raises in a render, while it carries out an instruction. Its call path leads from the
outermost template to that of the instance, and it is located, if anywhere, where the construct begins whose work the
instruction is. But an instruction that writes literal text has no region of its own, and stands for the end of the
source. -/
structure Diagnostic.Raised (d : Diagnostic) (settings : Settings) (bound : Instance) (start : Machine) (env : Env)
    (line : Line Nat Nat) (m k : Machine) : Prop where
  carries : Carries settings bound start env line m k
  template : d.template = some env.program.name
  first : d.callPath.head? = some bound.name
  last : d.callPath.getLast? = some env.program.name
  points : (∀ text, line.instr ≠ .text text) → ∀ l ∈ d.location, ∃ (t : Template) (l' : Line String Code) (x : Construct),
    t.code = env.program.toCode ∧ t.lines[m.frames.next env.scope]? = some l' ∧ x.Of (Node.In env.program.source) ∧
      x.Executes l'.instr ∧ l.Points env.program.source x
  ends : ∀ text, line.instr = .text text → ∀ l ∈ d.location,
    l = .inSource env.program.source env.program.source.utf8ByteSize 0

/-- What calls nothing comes to what it stays within. -/
theorem Follows.of_none {course : Course (Option Flow)} {flow : Option Flow} {visits : List Visit} {k : Machine}
    {post : Option Flow → Machine → Prop} (h : Follows settings course flow visits k) (hw : course.Within .none post) :
    post flow k := by
  cases h with
  | done =>
    cases hw with
    | done hp => exact hp
  | call =>
    cases hw with
    | call hc => exact hc.elim

/-- Finding a truth from others tells nothing. -/
theorem perform_unplaced {env : Env} {i : Instr Nat Nat} (hi : i.Unplaced) (ht : ∀ text, i ≠ .text text) (m : Machine) :
    ((perform settings env i).run m).Within .none fun _ k => k.workspace = m.workspace := by
  have hpop : Within .none (fun k => k.workspace = m.workspace) anything pop := .pop fun _ _ h => h
  have hpush (v : Value) : Within .none (fun k => k.workspace = m.workspace) anything (push v) := .push (fun _ _ h => h) v
  have hall : Attempt.Within .none (fun k => k.workspace = m.workspace) anything (perform settings env i) := by
    cases i with
    | text s => exact absurd rfl (ht s)
    | not =>
      rw [perform, Instr.convertM, pure_bind]
      exact .bind (.lift hpop) fun _ _ => .bind (.lift (hpush _)) fun _ _ => .pure trivial
    | and | or =>
      rw [perform, Instr.convertM, pure_bind]
      exact .bind (.lift hpop) fun _ _ => .bind (.lift hpop) fun _ _ => .bind (.lift (hpush _)) fun _ _ => .pure trivial
    | _ => cases hi
  exact (hall m rfl).mono fun _ _ h => h.2

/-- The outermost instance of a chain. -/
def Env.root? (env : Env) : Option String := env.activations.getLast?.map fun a => a.bound.name

/-- Where a render is, the outermost instance is the one that is rendered. -/
theorem Reached.root? {retain : Bool} {sink : Sink} {cursor : Nat} {w : Workspace} {c : Configuration}
    (h : Reached settings bound ⟨.empty retain, [], sink, cursor, w⟩ c) :
    match c with
    | .running env _ => env.root? = some bound.name
    | .carrying env _ _ => env.root? = some bound.name := by
  induction h with
  | root enter =>
    cases enter
    rfl
  | fetch _ _ _ ih => exact ih
  | call carrying _ enter ih =>
    obtain ⟨⟨place, rfl⟩, -⟩ := (framed_kept .none settings).called (framed_start trivial ..) carrying
    cases enter
    exact (congrArg _ List.getLast?_cons_cons).trans ih
  | back _ _ ih => exact ih
  | next _ ih => exact ih

/-- An instruction of a template that is written in its source is the work of a construct of that source, if it has a
region, or else stands for the end of the source. -/
theorem Code.Written.line {p : Program} (h : p.toCode.Written) {a : Nat} {l : Line Nat Nat} (hl : p.lines[a]? = some l)
    {s : Span} (hs : s ∈ l.span) : l.instr.Unplaced ∧ s = ⟨p.source.utf8ByteSize, 0⟩ ∨ ¬ l.instr.Unplaced ∧
      ∃ (t : Template) (l' : Line String Code) (x : Construct), t.code = p.toCode ∧ t.lines[a]? = some l' ∧
        x.Of (Node.In p.source) ∧ x.Executes l'.instr ∧ x.span = s := by
  obtain ⟨t, ht, hcode⟩ := h
  have hl : t.code.lines[a]? = some l := hcode ▸ hl
  obtain ⟨l', hl', rfl⟩ := t.line_of_code hl
  have hsource : t.origin.source = p.source := congrArg Code.source hcode
  rcases ht.place (List.mem_of_getElem? hl') hs with ⟨hu, rfl⟩ | ⟨x, hx, he, hspan⟩
  · exact .inl ⟨(Instr.unplaced_convert _ _ _).mpr hu, by rw [hsource]⟩
  · exact .inr ⟨fun hu => he.not_unplaced ((Instr.unplaced_convert _ _ _).mp hu), t, l', x, hcode, hl', hsource ▸ hx, he,
      hspan⟩

/-- What is told in a render where instances are written in sources comes from compiling, or is raised by one that
carries out an instruction. -/
theorem Told.raised {retain : Bool} {sink : Sink} {cursor : Nat} {w : Workspace} {n : Nat} {t : Listener × Diagnostic}
    (h : Told settings bound ⟨.empty retain, [], sink, cursor, w⟩ n t)
    (hw : ∀ env m, Reached settings bound ⟨.empty retain, [], sink, cursor, w⟩ (.running env m) → env.program.toCode.Written) :
    t.2.OfCompiling ∨ ∃ env line m k,
      t.2.Raised settings bound ⟨.empty retain, [], sink, cursor, w⟩ env line m k := by
  cases h with
  | compiling found => exact .inl found
  | @carrying env line m k carries since within tells =>
    obtain ⟨kind, arguments, causes, rfl, -⟩ := tells
    obtain ⟨_, -, hm, -⟩ := (framed_kept .none settings).reached (framed_start trivial ..) carries.running
    have hpath : m.frames.callPath env.scope = (env.activations.map fun a => a.bound.name).reverse := hm.callPath_eq
    have hwritten := hw env m carries.running
    refine .inr ⟨env, line, m, k, carries, rfl, ?_, ?_, fun htext l hl => ?_, fun text htext l hl => ?_⟩
    · change (m.frames.callPath env.scope).head? = _
      rw [hpath, List.head?_reverse, List.getLast?_map]
      exact Reached.root? carries.running
    · change (m.frames.callPath env.scope).getLast? = _
      rw [hpath, List.getLast?_reverse]
      rfl
    · obtain ⟨s, hs, rfl⟩ := Option.map_eq_some_iff.mp hl
      rcases hwritten.line carries.inside hs with ⟨hu, -⟩ | ⟨-, t, l', x, hcode, hl', hx, he, rfl⟩
      · -- such an instruction tells nothing
        obtain ⟨_, _, hdoes⟩ := carries.does
        have hsame := hdoes.of_none (perform_unplaced hu htext _)
        exact absurd (hsame ▸ within) (Nat.not_lt.mpr since)
      · exact ⟨t, l', x, hcode, hl', hx, he, hx.points⟩
    · obtain ⟨s, hs, rfl⟩ := Option.map_eq_some_iff.mp hl
      rcases hwritten.line carries.inside hs with ⟨-, rfl⟩ | ⟨hu, -⟩
      · rfl
      · exact absurd (htext ▸ trivial) hu

end

/-! ## Histories -/

/-- Where a diagnostic points that an action of a host delivers. It comes of compiling something that the action compiles, or
else is raised in the render that the action is, of an instance that the host holds. -/
inductive Diagnostic.Points (h : Host) (a : Action) (d : Diagnostic) : Prop where
  | compiling {c : Compilation} (within : c.Within h a) (found : c.Finds d) (places : c.Places d)
  | rendering {id : String} {i : Interpreter} {room : Option Nat} {bound : Instance} {env : Env} {line : Line Nat Nat}
      {m k : Machine} (render : a = .observe (.render id i room)) (held : h.instance? id = some bound)
      (raised : d.Raised ⟨i.depthLimit, bound.group, i.listener.getD bound.group.listener⟩ bound
        ⟨.empty i.retain, [], .output room, 0, h.workspace⟩ env line m k)

theorem Diagnostic.Found.points {h : Host} {a : Action} {d : Diagnostic} (hd : d.Found h a) : d.Points h a :=
  hd.elim fun _ ⟨hc, hf⟩ => .compiling hc hf hf.places

namespace Host

/-- All that runs in a render of what a host holds is written in its source. -/
theorem written {as : List Action} {id : String} {bound : Instance} (hb : (Host.empty.after as).instance? id = some bound)
    (i : Interpreter) (retain : Bool) (room : Option Nat) {env : Env} {m : Machine}
    (h : Reached ⟨i.depthLimit, bound.group, i.listener.getD bound.group.listener⟩ bound
      ⟨.empty retain, [], .output room, 0, (Host.empty.after as).workspace⟩ (.running env m)) :
    env.program.toCode.Written := by
  obtain ⟨notes, hh⟩ := Host.Housed.empty.after as
  have hbound := hh.instances id bound hb
  obtain ⟨_, hall, -⟩ := (housing_upheld hbound.noted_group).lasting.contract.reached
    (Facts.Upheld.start hbound retain (.output room) 0 hh.filed) h
  have hhere : env.here.bound.All (Instance.Housed notes) := hall env.here List.mem_cons_self
  obtain ⟨p, hp, hinside⟩ := hhere.bare.1
  have hwritten : p.toCode.Written := by
    rcases hp with ⟨_, _, -, _, hc⟩ | ⟨_, hc⟩ <;> exact Program.written_of_compile hc
  exact hwritten.inside hinside

/-- Rendering an instance delivers what points, found in what the host holds or raised by instances that run. -/
theorem render_adds {as : List Action} {id : String} {bound : Instance}
    (hb : (Host.empty.after as).instance? id = some bound) (i : Interpreter) (room : Option Nat) :
    (Host.empty.after as).workspace.Adds
      (fun _ t => t.2.Points (Host.empty.after as) (.observe (.render id i room)))
      (i.final i.retain room bound (Host.empty.after as).workspace).workspace := by
  have hall : bound.All (Instance.Reaches (Host.empty.after as).Holds) := Announces.instance_reaches hb
  have hfound := Facts.Upheld.renderTo i room hall
    (upheld (a := .observe (.render id i room)) (Host.empty.after as).workspace (List.forall_mem_append.mp hall.bare).1)
    (.refl _)
  refine ((i.told i.retain room bound _).and hfound).mono fun _ _ _ _ ⟨ht, hf⟩ => ?_
  rcases ht.raised fun _ _ h => written hb i i.retain room h with ⟨c, hc⟩ | ⟨_, _, _, _, hr⟩
  · exact (hf hc.phase).points
  · exact .rendering rfl hb hr

end Host

/-- Diagnostics point at what is wrong. Whatever a host did before, all that an action delivers comes of compiling, and is
located where a syntax error is or where a construct with a problem begins, or is raised in the render that the action
is: its call path leads from the outermost template to its own, and it is located where the construct begins that is
carried out, but for literal text. -/
theorem diagnostics_point (as : List Action) (a : Action) :
    ∀ t ∈ (Host.empty.after as).news a, t.2.Points (Host.empty.after as) a := by
  refine Host.of_news ?_
  cases a with
  | build b => exact b.make_delivers _ _
  | observe o =>
    by_cases h : ∃ id i room, o = .render id i room
    · obtain ⟨id, i, room, rfl⟩ := h
      rw [Host.perform, Host.observe, Observation.ask]
      cases hb : (Host.empty.after as).instance? id with
      | none => exact .refl _
      | some bound => exact Host.render_adds hb i room
    · exact ((Host.ask_delivers fun id i room he => h ⟨id, i, room, he⟩).mono fun _ hd => hd.points) _

theorem diagnostics_point_page :
    let as : List Action := [.build (.create "g" "g"), .build (.define "g" "page" (.ofNames ["title"]) "by <title>"),
      .observe (.instantiate "g" "page" "page"), .observe (.set "page" "title" (.text "Stencil"))]
    let a : Action := .observe (.render "page" {} (some 1))
    ∃ l d, (l, d) ∈ (Host.empty.after as).news a ∧ d.kind = .outputFailure ∧ d.location.map Location.offset = some 3 ∧
      d.Points (Host.empty.after as) a := by
  intro as a
  have hnews : ((Host.empty.after as).news a).map (fun t => (t.2.kind, t.2.location.map Location.offset)) =
      [(.outputFailure, some 3)] := by decide +kernel
  obtain ⟨⟨l, d⟩, ht, he⟩ : ∃ t ∈ (Host.empty.after as).news a,
      (t.2.kind, t.2.location.map Location.offset) = (.outputFailure, some 3) :=
    List.mem_map.mp (hnews ▸ List.mem_cons_self)
  obtain ⟨hkind, hoffset⟩ := Prod.mk.inj he
  exact ⟨l, d, ht, hkind, hoffset, diagnostics_point as a (l, d) ht⟩

end Stencil
