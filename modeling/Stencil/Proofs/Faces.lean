import Stencil.Proofs.Still
/-! What templates see of frames. Opening, closing and recording leave it as it is. -/

namespace Stencil

/-- A frame without the address of its next instruction and without what is recorded in it. -/
def Frame.face (f : Frame) : Frame := { f with next := 0, events := #[], children := #[] }

namespace Frames

/-- What templates see of a frame. -/
def face? (f : Frames) (scope : Nat) : Option Frame := (f.get? scope).map Frame.face

variable (f : Frames)

theorem get?_change (scope other : Nat) (g : Frame → Frame) :
    (f.change scope g).get? other = if scope = other then (f.get? other).map g else f.get? other := by
  simp only [change, get?, Array.getElem?_modify]

theorem face?_change_of_ne {scope other : Nat} (h : scope ≠ other) (g : Frame → Frame) :
    (f.change scope g).face? other = f.face? other := by
  rw [face?, get?_change, if_neg h]
  rfl

theorem face?_change {g h : Frame → Frame} (hg : ∀ frame, (g frame).face = h frame.face) (scope : Nat) :
    (f.change scope g).face? scope = (f.face? scope).map h := by
  rw [face?, get?_change, if_pos rfl, face?, Option.map_map, Option.map_map]
  exact congrArg (Option.map · _) (funext hg)

theorem face?_change_eq {g : Frame → Frame} (hg : ∀ frame, (g frame).face = frame.face)
    (scope other : Nat) : (f.change scope g).face? other = f.face? other := by
  by_cases h : scope = other
  · rw [h, face?_change f (h := id) hg, Option.map_id_fun, id]
  · exact f.face?_change_of_ne h g

theorem face?_record (scope other : Nat) (e : Event) : (f.record scope e).face? other = f.face? other :=
  f.face?_change_eq (g := fun frame => { frame with events := frame.events.push e }) (fun _ => rfl) _ _

theorem face?_recordWriting (w : Writing) (scope : Nat) :
    (f.recordWriting w).face? scope = f.face? scope := by
  unfold recordWriting
  split
  · exact f.face?_record _ _ _
  · rfl

theorem face?_recordCompletion (c : Completion) (scope : Nat) :
    (f.recordCompletion c).face? scope = f.face? scope := by
  unfold recordCompletion
  split
  · dsimp only
    split
    · exact (face?_change_eq _ (g := fun frame => { frame with children := frame.children.push c })
        (fun _ => rfl) _ _).trans (f.face?_record _ _ _)
    · exact f.face?_record _ _ _
  · rfl

/-- Leaving a frame does not touch those in front of it. -/
theorem face?_exit {scope other : Nat} (h : other < scope) :
    (f.exit scope).face? other = f.face? other := by
  unfold exit
  split
  · rename_i hs
    have hs : scope + 1 = f.frames.size := of_decide_eq_true (Bool.and_eq_true_iff.mp hs).2
    simp only [face?, get?, Array.getElem?_pop]
    rw [if_pos (by omega)]
  · rfl

theorem face?_enter_of_lt (parent : Option Nat) (template : String) {scope : Nat} (h : scope < f.size) :
    (f.enter parent template).2.face? scope = f.face? scope := by
  simp only [enter, face?, get?, Array.getElem?_push_lt h, Array.getElem?_eq_getElem h]

theorem face?_enter (parent : Option Nat) (template : String) :
    (f.enter parent template).2.face? f.size = some
      { parent, template
        early := ((parent.bind f.face?).map Frame.early).getD false
        depth := ((parent.bind f.face?).map fun a => a.depth + 1).getD 0 } := by
  have ha {α : Type} (g : Frame → α) (hg : ∀ frame, g frame.face = g frame) :
      (parent.bind f.get?).map g = (parent.bind f.face?).map g := by
    cases parent with
    | none => rfl
    | some scope =>
      rw [Option.bind_some, Option.bind_some, face?, Option.map_map]
      exact congrArg (Option.map · _) (funext fun frame => (hg frame).symm)
  simp only [enter, face?, get?, size, Array.getElem?_push_size, Option.map_some, Frame.face]
  rw [← ha Frame.early fun _ => rfl, ← ha (fun a => a.depth + 1) fun _ => rfl]

theorem face?_still (scope : Nat) : f.still.face? scope = f.face? scope := by
  rw [face?, still_get?, Option.map_map]
  rfl

theorem isEarly_eq (scope : Nat) : f.isEarly scope = ((f.face? scope).map Frame.early).getD false := by
  rw [isEarly, face?, Option.map_map]
  rfl

theorem default?_eq (scope : Nat) (name : String) :
    f.default? scope name = (f.face? scope).bind fun frame => Dict.find? frame.defaults name := by
  rw [default?, face?, Option.bind_map]
  rfl

theorem lt_size_of_face? {scope : Nat} {frame : Frame} (h : f.face? scope = some frame) :
    scope < f.size := by
  obtain ⟨frame, hf, -⟩ := Option.map_eq_some_iff.mp h
  exact (Array.getElem?_eq_some_iff.mp hf).1

/-- Frames that are retained are never left. -/
theorem exit_retained (h : f.retained = true) (scope : Nat) : f.exit scope = f := by
  rw [exit, h]
  rfl

theorem retained_exit (scope : Nat) : (f.exit scope).retained = f.retained := by
  unfold exit
  split <;> rfl

theorem retained_recordWriting (w : Writing) : (f.recordWriting w).retained = f.retained := by
  unfold recordWriting
  split <;> rfl

theorem retained_recordCompletion (c : Completion) : (f.recordCompletion c).retained = f.retained := by
  unfold recordCompletion
  split
  · dsimp only
    split <;> rfl
  · rfl

theorem face?_exit_eq (scope other : Nat) : (f.exit scope).face? other =
    if (!f.retained && scope + 1 = f.size) && scope = other then none else f.face? other := by
  unfold exit
  cases h : !f.retained && decide (scope + 1 = f.size) with
  | false => simp
  | true =>
    have hs : scope + 1 = f.frames.size := of_decide_eq_true (Bool.and_eq_true_iff.mp h).2
    simp only [if_true, face?, get?, Array.getElem?_pop, Bool.true_and, decide_eq_true_eq]
    split
    · rw [if_neg (by omega)]
    · split
      · rfl
      · rw [Array.getElem?_eq_none (by omega)]

theorem pathUp_succ_eq (n scope : Nat) : f.pathUp (n + 1) (some scope) =
    ((f.face? scope).map fun frame => frame.template :: f.pathUp n frame.parent).getD [] := by
  rw [pathUp, face?]
  cases f.get? scope <;> rfl

/-! ## Frames that look the same -/

/-- Two lots of frames in which templates see the same. Other things may be recorded in them. -/
structure SameFaces (f f' : Frames) : Prop where
  size : f.size = f'.size
  retained : f.retained = f'.retained
  face : ∀ scope, f.face? scope = f'.face? scope

namespace SameFaces

variable {f f' : Frames}

theorem change (h : f.SameFaces f') {g : Frame → Frame} (hg : ∀ frame, (g frame).face = g frame.face) (scope : Nat) :
    (f.change scope g).SameFaces (f'.change scope g) where
  size := by rw [size_change, size_change, h.size]
  retained := h.retained
  face other := by
    by_cases hs : scope = other
    · rw [hs, f.face?_change hg, f'.face?_change hg, h.face]
    · rw [f.face?_change_of_ne hs, f'.face?_change_of_ne hs, h.face]

theorem setEarly (h : f.SameFaces f') (scope : Nat) (early : Bool) :
    (f.setEarly scope early).SameFaces (f'.setEarly scope early) :=
  h.change (g := fun frame => { frame with early }) (fun _ => rfl) scope

theorem storeDefault (h : f.SameFaces f') (scope : Nat) (name : String) (v : Value) :
    (f.storeDefault scope name v).SameFaces (f'.storeDefault scope name v) :=
  h.change (g := fun frame => { frame with defaults := Dict.insert name v frame.defaults }) (fun _ => rfl) scope

theorem recordWriting (h : f.SameFaces f') (w w' : Writing) : (f.recordWriting w).SameFaces (f'.recordWriting w') where
  size := by rw [size_recordWriting, size_recordWriting, h.size]
  retained := by rw [retained_recordWriting, retained_recordWriting, h.retained]
  face scope := by rw [face?_recordWriting, face?_recordWriting, h.face]

theorem recordCompletion (h : f.SameFaces f') (c c' : Completion) :
    (f.recordCompletion c).SameFaces (f'.recordCompletion c') where
  size := by rw [size_recordCompletion, size_recordCompletion, h.size]
  retained := by rw [retained_recordCompletion, retained_recordCompletion, h.retained]
  face scope := by rw [face?_recordCompletion, face?_recordCompletion, h.face]

theorem exit (h : f.SameFaces f') (scope : Nat) : (f.exit scope).SameFaces (f'.exit scope) where
  size := by
    unfold Frames.exit
    rw [h.retained, h.size]
    split
    · have hsize : f.frames.size = f'.frames.size := h.size
      rw [Frames.size, Frames.size, Array.size_pop, Array.size_pop, hsize]
    · exact h.size
  retained := by rw [retained_exit, retained_exit, h.retained]
  face other := by rw [face?_exit_eq, face?_exit_eq, h.retained, h.size, h.face]

theorem enter (h : f.SameFaces f') (parent : Option Nat) (template : String) :
    (f.enter parent template).1 = (f'.enter parent template).1 ∧
      (f.enter parent template).2.SameFaces (f'.enter parent template).2 := by
  refine ⟨h.size, ?_, h.retained, fun scope => ?_⟩
  · have hsize : f.frames.size = f'.frames.size := h.size
    rw [Frames.size, Frames.size, Frames.enter, Frames.enter, Array.size_push, Array.size_push, hsize]
  · rcases Nat.lt_trichotomy scope f.size with hs | rfl | hs
    · rw [f.face?_enter_of_lt _ _ hs, f'.face?_enter_of_lt _ _ (h.size ▸ hs), h.face]
    · rw [f.face?_enter, h.size, f'.face?_enter, funext h.face]
    · have hnone (g : Frames) (hg : g.size < scope) : (g.enter parent template).2.face? scope = none := by
        have hpush : (g.enter parent template).2.frames.size = g.size + 1 := Array.size_push _
        rw [face?, get?, Array.getElem?_eq_none (by omega)]
        rfl
      rw [hnone f hs, hnone f' (h.size ▸ hs)]

theorem isEarly_eq (h : f.SameFaces f') (scope : Nat) : f.isEarly scope = f'.isEarly scope := by
  rw [f.isEarly_eq, f'.isEarly_eq, h.face]

theorem lookup_eq (h : f.SameFaces f') (name : String) (wanted : Option Nat) (as : List Activation) :
    lookupFrom f name wanted as = lookupFrom f' name wanted as := by
  induction as generalizing wanted with
  | nil => rfl
  | cons a as ih => simp only [lookupFrom, default?_eq, h.face, ih]

theorem callPath_eq (h : f.SameFaces f') (scope : Nat) : f.callPath scope = f'.callPath scope := by
  have hpath (n : Nat) (scope : Option Nat) : f.pathUp n scope = f'.pathUp n scope := by
    induction n generalizing scope with
    | zero => rfl
    | succ n ih =>
      cases scope with
      | none => rfl
      | some scope => rw [pathUp_succ_eq, pathUp_succ_eq, h.face, funext ih]
  rw [callPath, callPath, h.size, hpath]

end SameFaces

end Frames

end Stencil
