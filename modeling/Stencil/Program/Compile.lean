import Stencil.Program.Lowering
import Stencil.Template.Problem
import Stencil.Template.Reading
/-! Compiles the source of a template: reads it, looks for problems, and lowers it if there are none. -/

namespace Stencil

structure CompileError where
  template : String
  diagnostics : List Diagnostic
deriving DecidableEq, Repr, Inhabited

namespace CompileError

def message (e : CompileError) : String :=
  s!"template {e.template} failed to compile with {e.diagnostics.length} error(s)"

end CompileError

namespace Formals

/-- The defaults that are declared, each with its parameter and as far as it can be read. -/
def readDefaults (f : Formals) : List (String × Except SyntaxError Expr) :=
  f.parameters.filterMap fun p => p.default.map fun source => (p.name, Expr.read source)

end Formals

namespace Finding

/-- The diagnostic of a finding in the source of a template. -/
def diagnostic (f : Finding) (template source : String) : Diagnostic :=
  { f.problem.diagnostic template with
    location := some (.inSource source f.span.offset f.span.length) }

end Finding

namespace Template

/-- Reads a template. A syntax error of the body is reported alone, those of defaults together. -/
def read (name : String) (formals : Formals) (source : String) : Except CompileError Template :=
  match Element.readAll source with
  | .error e =>
    .error ⟨name, [{ Diagnostic.compiling .syntaxError name [e.message] with
      location := some (.inSource source e.location.offset 1) }]⟩
  | .ok body =>
    let defaults := formals.readDefaults
    let faults := defaults.filterMap fun (parameter, default) =>
      match default with
      | .error e => some (.compiling .syntaxError name [s!"default value of {parameter}: {e.message}"])
      | .ok _ => none
    if faults.isEmpty then
      let defaults := defaults.filterMap fun (parameter, default) =>
        match default with
        | .error _ => none
        | .ok e => some (parameter, e)
      .ok { name, formals, origin := ⟨source, false⟩, defaults, body, anonymous := false, before := 0 }
    else .error ⟨name, faults⟩

/-- What is read is a template that the reader may give. -/
theorem Proper.ofRead {name source : String} {formals : Formals} {t : Template}
    (h : read name formals source = .ok t) : t.Proper := by
  unfold read at h
  split at h
  · cases h
  · rename_i body hb
    dsimp only at h
    split at h
    · cases h
      refine ⟨fun d hd => ?_, Span.Within source, fun s hs p hp => ?_, .ofRead hb⟩
      · obtain ⟨⟨parameter, default⟩, hm, hd⟩ := List.mem_filterMap.mp hd
        obtain ⟨p, _, hp⟩ := List.mem_filterMap.mp hm
        obtain ⟨text, _, hp⟩ := Option.map_eq_some_iff.mp hp
        cases hp
        split at hd
        · cases hd
        · cases hd
          exact ⟨Span.Within text, .ofRead ‹_›⟩
      · cases hp
        exact hs
    · cases h

theorem of_read {name source : String} {formals : Formals} {t : Template}
    (h : read name formals source = .ok t) :
    t.name = name ∧ t.formals = formals ∧ t.origin.source = source := by
  unfold read at h
  split at h
  · cases h
  · dsimp only at h
    split at h
    · cases h
      exact ⟨rfl, rfl, rfl⟩
    · cases h

theorem anonymous_of_read {name source : String} {formals : Formals} {t : Template}
    (h : read name formals source = .ok t) : t.anonymous = false := by
  unfold read at h
  split at h
  · cases h
  · dsimp only at h
    split at h
    · cases h
      rfl
    · cases h

/-- The problems of a template. Those of defaults have no place in the source. -/
def problems (directory : Directory) (t : Template) : List Diagnostic :=
  let scope : Scope := ⟨directory, [t.formals]⟩
  (t.defaults.flatMap fun (_, e) => (e.findings scope false).map fun f => f.problem.diagnostic t.name) ++
    (Element.findingsAll scope t.body).map fun f => f.diagnostic t.name t.origin.source

end Template

/-- A template that is ready to run. All of its code is made from a tree. -/
structure Program extends Code where
  lowered : toCode.Lowered

namespace Program

/-- A program is its code. -/
theorem eq_of_toCode : {p q : Program} → p.toCode = q.toCode → p = q
  | ⟨_, _⟩, ⟨_, _⟩, rfl => rfl

def ofTemplate (t : Template) (h : t.Proper) : Program := ⟨t.code, t, h, rfl⟩

/-- The template without a name that an instruction means by its number. -/
def subprogram? (p : Program) (index : Nat) : Option Program :=
  match h : p.inner[index]? with
  | some code => some ⟨code, p.lowered.inner (List.mem_of_getElem? h)⟩
  | none => none

/-- The templates inside, in the order of their numbers. -/
def subprograms (p : Program) : List Program :=
  p.inner.attach.map fun ⟨code, h⟩ => ⟨code, p.lowered.inner h⟩

/-- Compiles a template. Problems other than syntax errors are reported together. -/
def compile (directory : Directory) (name : String) (formals : Formals) (source : String) :
    Except CompileError Program :=
  match h : Template.read name formals source with
  | .error e => .error e
  | .ok t =>
    match t.problems directory with
    | [] => .ok (.ofTemplate t (.ofRead h))
    | found => .error ⟨name, found⟩

/-- A compiled program is the code of what was read, in which there were no problems. -/
theorem of_compile {directory : Directory} {name source : String} {formals : Formals} {p : Program}
    (h : compile directory name formals source = .ok p) :
    ∃ t, Template.read p.name p.formals p.source = .ok t ∧ t.problems directory = [] ∧
      t.code = p.toCode ∧ p.name = name ∧ p.formals = formals ∧ p.source = source := by
  unfold compile at h
  split at h
  · cases h
  · rename_i t ht
    split at h
    · rename_i hp
      cases h
      obtain ⟨hn, hf, hs⟩ := Template.of_read ht
      subst hn hf hs
      exact ⟨t, ht, hp, rfl, rfl, rfl, rfl⟩
    · cases h

theorem of_isOk {directory : Directory} {name source : String} {formals : Formals}
    (h : (compile directory name formals source).isOk = true) :
    ∃ p, compile directory name formals source = .ok p ∧ p.name = name := by
  cases hp : compile directory name formals source with
  | error e =>
    rw [hp] at h
    cases h
  | ok p =>
    obtain ⟨-, -, -, -, hn, -⟩ := of_compile hp
    exact ⟨p, rfl, hn⟩

end Program

end Stencil
