import Stencil.Proofs.Correctness
import Stencil.Proofs.Heights
/-! Code that is made from trees is well formed, and so are the templates inside it. -/

namespace Stencil

namespace Instr

variable {τ ι τ' ι' : Type} (f : τ → τ') (g : ι → ι') (i : Instr τ ι)

theorem constant?_convert : (i.convert f g).constant? = i.constant?.map f := by cases i <;> rfl

theorem inner?_convert : (i.convert f g).inner? = i.inner?.map g := by cases i <;> rfl

end Instr

namespace Code

/-- A template is inside another one, at any depth, or is that one. -/
inductive Inside : Code → Code → Prop where
  | here (c : Code) : Inside c c
  | deeper {c d e : Code} : d ∈ e.inner → Inside c d → Inside c e

/-- What instructions refer to is there, they lie beside their regions of the source, branches go
forward, and each address has its number of operands. -/
structure WellFormed (c : Code) : Prop where
  spans : (c.lines.map Line.span).length = (c.lines.map Line.instr).length
  place : ∀ l ∈ c.lines, ∀ s ∈ l.span, s.Within c.source
  pool : c.constants.Nodup
  constant : ∀ l ∈ c.lines, ∀ id ∈ l.instr.constant?, id < c.constants.length
  inner : ∀ l ∈ c.lines, ∀ index ∈ l.instr.inner?, index < c.inner.length
  target : ∀ a l, c.lines[a]? = some l → ∀ target ∈ l.instr.target?,
    a < target ∧ target ≤ c.lines.length
  height : ∃ height : Nat → Nat, (∀ a h, c.Reaches a h → h = height a) ∧
    height c.lines.length = 0 ∧ ∀ a l, c.lines[a]? = some l →
      l.instr.pops ≤ height a ∧ ∀ target ∈ l.instr.target?, height target = 0

theorem nodup_eraseDups {α : Type} [BEq α] [LawfulBEq α] : (as : List α) → as.eraseDups.Nodup
  | [] => List.nodup_nil
  | a :: as => by
      rw [List.eraseDups_cons]
      refine List.nodup_cons.mpr ⟨fun h => ?_, nodup_eraseDups _⟩
      have hf := (List.mem_filter.mp (List.mem_eraseDups.mp h)).2
      rw [beq_self_eq_true] at hf
      cases hf
termination_by as => as.length
decreasing_by exact Nat.lt_succ_of_le (List.length_filter_le _ _)

theorem Lowered.inside {c e : Code} (hi : Inside c e) (h : e.Lowered) : c.Lowered := by
  induction hi with
  | here => exact h
  | deeper hd _ ih => exact ih (h.inner hd)

end Code

namespace Template

variable {t : Template} {a : Nat} {l : Line Nat Nat}

/-- The line of a template that a line of its code stands for. -/
theorem line_of_code (h : t.code.lines[a]? = some l) : ∃ l', t.lines[a]? = some l' ∧
    l = ⟨l'.instr.convert t.code.constants.idxOf fun _ => (Line.inners (t.lines.take a)).length, l'.span⟩ := by
  obtain ⟨l', hl', he⟩ := Option.map_eq_some_iff.mp ((Line.getElem?_pool t.lines 0 a).symm.trans h)
  rw [Nat.zero_add] at he
  exact ⟨l', hl', he.symm⟩

theorem length_code (t : Template) : t.code.lines.length = t.lines.length := Line.length_pool _ _

/-- At each address, paths come with the height that is counted along the lines. -/
theorem height_eq {h : Nat} (hr : t.code.Reaches a h) : h = t.height a := by
  induction hr with
  | start => rfl
  | @next a h l _ hl _ ih =>
    obtain ⟨l', hl', rfl⟩ := line_of_code hl
    rw [t.height_succ hl', ih, Instr.after_convert]
  | @jump a h l target _ hl ht ih =>
    obtain ⟨l', hl', rfl⟩ := line_of_code hl
    rw [Instr.target?_convert] at ht
    have ha := (List.getElem?_eq_some_iff.mp hl').1
    obtain ⟨-, -, hz, hz'⟩ := ((t.rises rfl).2 a (Nat.zero_le _) ha l' hl').2 target ht
    rw [hz', Instr.after_convert, ih, ← t.height_succ hl', hz]

end Template

theorem Code.Lowered.formed {c : Code} (h : c.Lowered) : c.WellFormed := by
  obtain ⟨t, ht, rfl⟩ := h
  have hsteady (a : Nat) (l : Line String Code) (hl : t.lines[a]? = some l) :=
    (t.rises rfl).2 a (Nat.zero_le _) (List.getElem?_eq_some_iff.mp hl).1 l hl
  refine ⟨by simp, fun l hl => ?_, ?_, fun l hl => ?_, fun l hl => ?_, fun a l hl => ?_,
    t.height, fun a h => t.height_eq, ?_, fun a l hl => ?_⟩
  · obtain ⟨a, ha⟩ := List.mem_iff_getElem?.mp hl
    obtain ⟨l', hl', rfl⟩ := t.line_of_code ha
    exact (ht.sound l' (List.mem_of_getElem? hl')).place
  · exact Code.nodup_eraseDups _
  · obtain ⟨a, ha⟩ := List.mem_iff_getElem?.mp hl
    obtain ⟨l', hl', rfl⟩ := t.line_of_code ha
    rw [Instr.constant?_convert]
    intro id hid
    obtain ⟨s, hs, rfl⟩ := Option.map_eq_some_iff.mp hid
    exact (List.getElem?_eq_some_iff.mp (Code.getElem?_constants (List.mem_of_getElem? hl') hs)).1
  · obtain ⟨a, ha⟩ := List.mem_iff_getElem?.mp hl
    obtain ⟨l', hl', rfl⟩ := t.line_of_code ha
    rw [Instr.inner?_convert]
    intro index hi
    obtain ⟨c, hc, rfl⟩ := Option.map_eq_some_iff.mp hi
    exact (List.getElem?_eq_some_iff.mp (Line.getElem?_inners hl' hc)).1
  · obtain ⟨l', hl', rfl⟩ := t.line_of_code hl
    intro target htarget
    rw [Instr.target?_convert] at htarget
    rw [t.length_code]
    exact ⟨((hsteady a l' hl').2 target htarget).1, ((hsteady a l' hl').2 target htarget).2.1⟩
  · rw [t.length_code]
    exact (t.rises rfl).1
  · obtain ⟨l', hl', rfl⟩ := t.line_of_code hl
    rw [Instr.pops_convert, Instr.target?_convert]
    exact ⟨(hsteady a l' hl').1, fun target htarget => ((hsteady a l' hl').2 target htarget).2.2.2⟩

/-- A program is well formed together with all that is inside it, and no render misses an operand, a
constant or an inner template. -/
theorem Program.wellFormed (p : Program) : (∀ c : Code, c.Inside p.toCode → c.WellFormed) ∧
    ∀ (settings : Settings) (n : Nat) (caller : Option Env) (bound : Instance) (m : Machine),
      ∃ k, Rendering.invoke settings n caller bound m = .done () k :=
  ⟨fun _ hc => (p.lowered.inside hc).formed, invoke_done⟩

end Stencil
