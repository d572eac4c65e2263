import Stencil.Proofs.Compilation
import Stencil.Proofs.Ledger
/-! What looking up delivers. It comes from compiling, and is the same whatever was delivered before. -/

namespace Stencil

/-- What is delivered, with its receivers. -/
abbrev Deliveries := Array (Listener × Diagnostic)

/-- A diagnostic that comes from compiling something. -/
def Diagnostic.OfCompiling (d : Diagnostic) : Prop := ∃ c : Compilation, c.Finds d

/-- Whatever was delivered before, an action comes to the same result and the same slots and reports, and
delivers the same diagnostics, which come from compiling. -/
def Appends {α : Type} (action : StateM Workspace α) : Prop :=
  ∀ slots reports, ∃ a slots' reports', ∃ told : Deliveries, (∀ t ∈ told, t.2.OfCompiling) ∧
    ∀ delivered, action.run ⟨slots, reports, delivered⟩ = (a, ⟨slots', reports', delivered ++ told⟩)

namespace Workspace

/-- Diagnostics of a definition are delivered behind the others, once each. -/
theorem reports_append (slot : Nat) (listener : Listener) (slots : Array Slot) : (ds : List Diagnostic) →
    (reports : Array (List String)) → ∃ reports', ∃ told : Deliveries, (∀ t ∈ told, t.2 ∈ ds) ∧
      ∀ delivered : Deliveries, ds.foldl (fun (w : Workspace) d => w.reportOnce slot listener d)
        ⟨slots, reports, delivered⟩ = ⟨slots, reports', delivered ++ told⟩
  | [], reports => ⟨reports, #[], Array.forall_mem_empty _, fun delivered => by rw [Array.append_empty]; rfl⟩
  | d :: ds, reports => by
      have honce : ∃ reports', ∃ told : Deliveries, (∀ t ∈ told, t.2 = d) ∧ ∀ delivered : Deliveries,
          Workspace.reportOnce ⟨slots, reports, delivered⟩ slot listener d =
            ⟨slots, reports', delivered ++ told⟩ := by
        unfold reportOnce
        dsimp only
        split
        · exact ⟨reports, #[], Array.forall_mem_empty _, fun delivered => by rw [Array.append_empty]⟩
        · exact ⟨_, #[(listener, d)], fun t ht => by rw [List.mem_singleton.mp (Array.mem_toList_iff.mpr ht)],
            fun delivered => by rw [deliver, Array.push_eq_append]⟩
      obtain ⟨reports₁, told₁, h₁, hrun₁⟩ := honce
      obtain ⟨reports₂, told₂, h₂, hrun₂⟩ := reports_append slot listener slots ds reports₁
      refine ⟨reports₂, told₁ ++ told₂, fun t ht => ?_, fun delivered => ?_⟩
      · rcases Array.mem_append.mp ht with ht | ht
        · exact h₁ t ht ▸ List.mem_cons_self
        · exact List.mem_cons_of_mem _ (h₂ t ht)
      · rw [List.foldl_cons, hrun₁, hrun₂, Array.append_assoc]

end Workspace

namespace Group

theorem compiled_appends (g : Group) (name : String) (d : Definition) : Appends (g.compiled name d) := by
  intro slots reports
  cases ho : Workspace.outcome? ⟨slots, reports, #[]⟩ d.slot with
  | some o =>
    refine ⟨o.program?, slots, reports, #[], Array.forall_mem_empty _, fun delivered => ?_⟩
    have hkept : Workspace.outcome? ⟨slots, reports, delivered⟩ d.slot = some o := ho
    rw [g.compiled_kept name hkept, Array.append_empty]
  | none =>
    have hfresh (delivered : Deliveries) : Workspace.outcome? ⟨slots, reports, delivered⟩ d.slot = none := ho
    unfold compiled
    simp only [StateT.run_bind, StateT.run_get, pure_bind, hfresh]
    cases hc : Program.compile g.directory name d.formals d.source with
    | ok p =>
      exact ⟨some p, slots.modify d.slot fun s => { s with outcome := some (.ready p) }, reports, #[],
        Array.forall_mem_empty _, fun delivered => by rw [Array.append_empty]; rfl⟩
    | error e =>
      have hfinds := (Compilation.finds_of_error (c := ⟨name, d.formals, d.source, g.directory⟩) hc).2
      obtain ⟨reports', told, ht, hreports⟩ :=
        Workspace.reports_append d.slot g.listener slots e.diagnostics reports
      refine ⟨none, slots.modify d.slot fun s => { s with outcome := some (.failed e.isMendable) }, reports',
        told, fun t h => ⟨⟨name, d.formals, d.source, g.directory⟩, hfinds _ (ht t h)⟩, fun delivered => ?_⟩
      exact congrArg (fun w => (none, Workspace.settle w d.slot (.failed e.isMendable))) (hreports delivered)

theorem resolveFound_appends (name : String) (found : Option (Group × Definition)) :
    Appends (resolveFound name found) := by
  intro slots reports
  cases found with
  | none =>
    exact ⟨_, slots, reports, #[], Array.forall_mem_empty _, fun delivered => by rw [Array.append_empty]; rfl⟩
  | some f =>
    obtain ⟨native, d⟩ := f
    obtain ⟨o, slots', reports', told, ht, hrun⟩ := native.compiled_appends name d slots reports
    exact ⟨_, slots', reports', told, ht, fun delivered => resolveFound_run (hrun delivered)⟩

end Group

end Stencil
