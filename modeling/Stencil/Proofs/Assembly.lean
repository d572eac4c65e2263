import Stencil.Proofs.Course
import Stencil.Render.Run
/-! Assembled code holds its lines: each text and each inner template is found by its place. -/

namespace Stencil

open Rendering

/-- The inner templates that lines hold, in order. -/
abbrev Line.inners (lines : List (Line String Code)) : List Code := lines.filterMap fun l => l.instr.inner?

namespace Line

variable {constants : List String}

theorem getElem?_pool (lines : List (Line String Code)) (k a : Nat) :
    (pool constants k lines)[a]? = lines[a]?.map fun l =>
      ⟨l.instr.convert constants.idxOf fun _ => k + (inners (lines.take a)).length, l.span⟩ := by
  induction lines generalizing k a with
  | nil => rfl
  | cons l lines ih =>
    cases a with
    | zero => simp [pool, inners]
    | succ a =>
      rw [pool, List.getElem?_cons_succ, List.getElem?_cons_succ, ih]
      congr 1
      funext l'
      cases hi : l.instr.inner? <;> simp [inners, hi, Nat.add_assoc, Nat.add_comm 1]

theorem length_pool (lines : List (Line String Code)) (k : Nat) :
    (pool constants k lines).length = lines.length := by
  induction lines generalizing k with
  | nil => rfl
  | cons l lines ih => simp [pool, ih]

/-- The number of an inner template is how many came before. -/
theorem getElem?_inners {lines : List (Line String Code)} {a : Nat} {l : Line String Code}
    (hl : lines[a]? = some l) {c : Code} (hc : l.instr.inner? = some c) :
    (inners lines)[(inners (lines.take a)).length]? = some c := by
  obtain ⟨ha, rfl⟩ := List.getElem?_eq_some_iff.mp hl
  have hs : lines = lines.take a ++ lines[a] :: lines.drop (a + 1) := by
    rw [List.getElem_cons_drop, List.take_append_drop]
  have hi : inners lines = inners (lines.take a) ++ c :: inners (lines.drop (a + 1)) :=
    (congrArg inners hs).trans (by rw [inners, List.filterMap_append, List.filterMap_cons, hc])
  rw [hi, List.getElem?_append_right (Nat.le_refl _), Nat.sub_self, List.getElem?_cons_zero]

end Line

namespace Code

variable {name source : String} {formals : Formals} {anonymous : Bool}
  {lines : List (Line String Code)}

theorem getElem?_constants {l : Line String Code} (hl : l ∈ lines) {s : String}
    (hs : l.instr.constant? = some s) :
    let constants := (assemble name formals source anonymous lines).constants
    constants[constants.idxOf s]? = some s := by
  have hm : s ∈ (assemble name formals source anonymous lines).constants :=
    List.mem_eraseDups.mpr (List.mem_filterMap.mpr ⟨l, hl, hs⟩)
  exact List.getElem?_eq_some_iff.mpr ⟨List.idxOf_lt_length_of_mem hm, List.getElem_idxOf _⟩

end Code

section

variable {p : Program} {t : Template} (hp : t.code = p.toCode) {env : Env} (henv : env.program = p)
include hp henv

theorem constant_eq {l : Line String Code} (hl : l ∈ t.lines) {s : String}
    (hs : l.instr.constant? = some s) : constant env (p.constants.idxOf s) = pure s := by
  have hc : p.constants = t.code.constants := by rw [hp]
  unfold constant
  rw [henv, hc, Template.code, Code.getElem?_constants hl hs]

theorem subprogram_eq (settings : Settings) {a : Nat} {l : Line String Code}
    (hl : t.lines[a]? = some l) {c : Code} (hc : l.instr.inner? = some c) {q : Program}
    (hq : q.toCode = c) :
    subprogram settings env (Line.inners (t.lines.take a)).length = pure q := by
  have hi : p.inner[(Line.inners (t.lines.take a)).length]? = some c := by
    rw [← hp]
    exact Line.getElem?_inners hl hc
  unfold subprogram
  rw [henv]
  split
  · rename_i q' hq'
    unfold Program.subprogram? at hq'
    split at hq'
    · rename_i c' hc'
      cases hq'
      refine congrArg pure (Program.eq_of_toCode ?_)
      exact (Option.some.inj (hc'.symm.trans hi)).trans hq.symm
    · cases hq'
  · rename_i hq'
    unfold Program.subprogram? at hq'
    split at hq'
    · cases hq'
    · rename_i hn
      cases hn.symm.trans hi

end

/-- The line at an address of a program that is made from a tree, as the machine finds it. -/
theorem Program.resolve_line {p : Program} {t : Template} (hp : t.code = p.toCode) {a : Nat}
    {i : Instr String Code} {place : Option Span} (hl : t.lines[a]? = some ⟨i, place⟩)
    {f : Code → Program} (hf : ∀ c ∈ i.inner?, (f c).toCode = c) :
    ∃ raw, p.lines[a]? = some ⟨raw, place⟩ ∧ ∀ settings env, env.program = p →
      raw.convertM (fun id => (constant env id : Attempt String)) (subprogram settings env) =
        pure (i.convert id f) := by
  refine ⟨i.convert p.constants.idxOf fun _ => (Line.inners (t.lines.take a)).length, ?_, ?_⟩
  · rw [← hp]
    refine (Line.getElem?_pool _ 0 a).trans ?_
    rw [hl, Option.map_some, Nat.zero_add]
    rfl
  intro settings env henv
  have hs (s : String) (h : i.constant? = some s) := constant_eq hp henv (List.mem_of_getElem? hl) h
  have hc (c : Code) (h : i.inner? = some c) := subprogram_eq hp henv settings hl h (hf c h)
  have text {α : Type} (g : String → α) (s : String) (h : i.constant? = some s) :
      g <$> (constant env (p.constants.idxOf s) : Attempt String) = pure (g s) := by
    rw [hs s h, liftM_pure, map_pure]
  cases i with
  | text s => exact text _ s rfl
  | pushText s => exact text _ s rfl
  | pushAttribute s => exact text _ s rfl
  | property s => exact text _ s rfl
  | storeDefault s => exact text _ s rfl
  | create s inherited passing => exact (bind_pure_comp _ _).trans (text _ s rfl)
  | jumpIfSet s target => exact (bind_pure_comp _ _).trans (text _ s rfl)
  | createAnonymous c => exact (congrArg _ (hc c rfl)).trans (map_pure _ _)
  | _ => rfl

/-! ## Stretches of lines -/

/-- A stretch of the lines of a template, from an address up to another. -/
def Segment (t : Template) (start : Nat) (ls : List (Line String Code)) (stop : Nat) : Prop :=
  (∃ before after, t.lines = before ++ (ls ++ after) ∧ start = before.length) ∧
    stop = start + ls.length

namespace Segment

variable {t : Template} {start stop : Nat} {l : Line String Code} {first rest : List (Line String Code)}

theorem split (h : Segment t start (first ++ rest) stop) :
    ∃ mid, Segment t start first mid ∧ Segment t mid rest stop := by
  obtain ⟨⟨before, after, hl, hs⟩, he⟩ := h
  refine ⟨start + first.length, ⟨⟨before, rest ++ after, ?_, hs⟩, rfl⟩,
    ⟨before ++ first, after, ?_, ?_⟩, ?_⟩
  · rw [hl, List.append_assoc]
  · rw [hl, List.append_assoc, List.append_assoc]
  · rw [hs, List.length_append]
  · rw [he, List.length_append, Nat.add_assoc]

theorem cons (h : Segment t start (l :: rest) stop) :
    t.lines[start]? = some l ∧ Segment t (start + 1) rest stop := by
  obtain ⟨⟨before, after, hl, hs⟩, he⟩ := h
  refine ⟨?_, ⟨before ++ [l], after, ?_, ?_⟩, ?_⟩
  · rw [hl, hs, List.getElem?_append_right (Nat.le_refl _), Nat.sub_self]
    rfl
  · rw [hl, List.append_assoc]
    rfl
  · rw [hs, List.length_append]
    rfl
  · rw [he, List.length_cons]
    omega

theorem nil (h : Segment t start [] stop) : stop = start := h.2

theorem single (h : Segment t start [l] stop) : t.lines[start]? = some l ∧ stop = start + 1 :=
  ⟨h.cons.1, h.cons.2.nil⟩

theorem le (h : Segment t start first stop) : start ≤ stop := by
  rw [h.2]
  exact Nat.le_add_right _ _

theorem stop_le (h : Segment t start first stop) : stop ≤ t.lines.length := by
  obtain ⟨⟨before, after, hl, hs⟩, he⟩ := h
  rw [hl, he, hs, List.length_append, List.length_append]
  omega

theorem whole (t : Template) : Segment t 0 t.lines t.lines.length :=
  ⟨⟨[], [], by simp, rfl⟩, by simp⟩

end Segment

theorem Branch.length_join (exit : Nat) (arms : List (List (Line String Code) × Option Span)) :
    (Branch.join exit arms).length = (arms.map fun arm => arm.1.length + 1).foldr (· + ·) 0 := by
  simp [Branch.join, List.length_flatMap, List.sum_eq_foldr]

end Stencil
