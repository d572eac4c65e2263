import Stencil.Program.Compile
/-! What compiling finds wrong with a definition: its body or defaults cannot be read, or have problems
among the templates that the definition is compiled with. -/

namespace Stencil

/-- A definition and the templates that it is compiled with. -/
structure Compilation where
  name : String
  formals : Formals
  source : String
  directory : Directory

namespace Compilation

/-- The diagnostics of a compilation that fails. -/
def found (c : Compilation) : List Diagnostic :=
  match Program.compile c.directory c.name c.formals c.source with
  | .ok _ => []
  | .error e => e.diagnostics

/-- What a compilation may find. Only what is found in the body has a place there. -/
inductive Finds (c : Compilation) : Diagnostic → Prop where
  | unreadable {e : SyntaxError} (h : Element.readAll c.source = .error e) :
      Finds c { Diagnostic.compiling .syntaxError c.name [e.message] with
        location := some (.inSource c.source e.location.offset 1) }
  | unreadableDefault {parameter : String} {e : SyntaxError}
      (h : (parameter, .error e) ∈ c.formals.readDefaults) :
      Finds c (.compiling .syntaxError c.name [s!"default value of {parameter}: {e.message}"])
  | inDefault {parameter : String} {e : Expr} {f : Finding} (h : (parameter, .ok e) ∈ c.formals.readDefaults)
      (hf : f ∈ e.findings ⟨c.directory, [c.formals]⟩ false) : Finds c (f.problem.diagnostic c.name)
  | inBody {body : List Element} {f : Finding} (h : Element.readAll c.source = .ok body)
      (hf : f ∈ Element.findingsAll ⟨c.directory, [c.formals]⟩ body) : Finds c (f.diagnostic c.name c.source)

variable {c : Compilation} {d : Diagnostic}

/-- Templates that cannot be read come to what is unreadable in them. -/
theorem finds_of_read {e : CompileError} (h : Template.read c.name c.formals c.source = .error e) :
    e.diagnostics ≠ [] ∧ ∀ d ∈ e.diagnostics, c.Finds d := by
  unfold Template.read at h
  split at h
  · rename_i e hread
    cases h
    exact ⟨List.cons_ne_nil _ _, List.forall_mem_singleton.mpr (.unreadable hread)⟩
  · dsimp only at h
    split at h
    · cases h
    · rename_i hfaults
      cases h
      refine ⟨fun hnil => hfaults (List.isEmpty_iff.mpr hnil), fun d hd => ?_⟩
      obtain ⟨⟨parameter, default⟩, hm, hd⟩ := List.mem_filterMap.mp hd
      cases default with
      | ok e => cases hd
      | error e =>
        cases hd
        exact .unreadableDefault hm

/-- Templates that can be read come to their problems. -/
theorem finds_of_problems {t : Template} (h : Template.read c.name c.formals c.source = .ok t) :
    ∀ d ∈ t.problems c.directory, c.Finds d := by
  unfold Template.read at h
  split at h
  · cases h
  · rename_i body hread
    dsimp only at h
    split at h
    · cases h
      intro d hd
      rcases List.mem_append.mp hd with hd | hd
      · obtain ⟨⟨parameter, e⟩, he, hd⟩ := List.mem_flatMap.mp hd
        obtain ⟨f, hf, rfl⟩ := List.mem_map.mp hd
        obtain ⟨⟨parameter', default⟩, hm, he⟩ := List.mem_filterMap.mp he
        cases default with
        | error e => cases he
        | ok e =>
          cases he
          exact .inDefault hm hf
      · obtain ⟨f, hf, rfl⟩ := List.mem_map.mp hd
        exact .inBody hread hf
    · cases h

/-- A compilation that fails has found something. -/
theorem finds_of_error {e : CompileError} (h : Program.compile c.directory c.name c.formals c.source = .error e) :
    e.diagnostics ≠ [] ∧ ∀ d ∈ e.diagnostics, c.Finds d := by
  unfold Program.compile at h
  split at h
  · rename_i hread
    cases h
    exact finds_of_read hread
  · rename_i t hread
    split at h
    · cases h
    · rename_i hproblems
      cases h
      exact ⟨hproblems, finds_of_problems hread⟩

theorem finds_of_mem (h : d ∈ c.found) : c.Finds d := by
  unfold found at h
  split at h
  · cases h
  · rename_i hc
    exact (finds_of_error hc).2 d h

theorem found_of_error {e : CompileError} (h : Program.compile c.directory c.name c.formals c.source = .error e) :
    c.found = e.diagnostics := by
  rw [found, h]

theorem found_ne_nil {e : CompileError} (h : Program.compile c.directory c.name c.formals c.source = .error e) :
    c.found ≠ [] := found_of_error h ▸ (finds_of_error h).1

theorem found_of_ok {p : Program} (h : Program.compile c.directory c.name c.formals c.source = .ok p) :
    c.found = [] := by
  rw [found, h]

/-! All that compiling finds are errors of the template. -/

namespace Finds

theorem phase (h : c.Finds d) : d.phase = .compile := by cases h <;> rfl

theorem template (h : c.Finds d) : d.template = some c.name := by cases h <;> rfl

theorem severity (h : c.Finds d) : d.kind.severity = .error := by
  have hproblem (p : Problem) : p.kind.severity = .error := by cases p <;> rfl
  cases h with
  | unreadable | unreadableDefault => rfl
  | inDefault => exact hproblem _
  | inBody => exact hproblem _

theorem category (h : c.Finds d) : d.kind.category ≠ .internal := by
  have hproblem (p : Problem) : p.kind.category ≠ .internal := by cases p <;> nofun
  cases h with
  | unreadable | unreadableDefault => nofun
  | inDefault => exact hproblem _
  | inBody => exact hproblem _

end Finds

end Compilation

end Stencil
