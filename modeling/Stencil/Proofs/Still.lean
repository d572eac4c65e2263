import Stencil.Proofs.Coupling
import Stencil.Render.Run
/-! States of the machine apart from what only code needs: the operands and the addresses of the next
instructions. What templates do looks at neither. -/

namespace Stencil

def Frame.still (f : Frame) : Frame := { f with next := 0 }

namespace Frames

/-- Frames without the addresses of their next instructions. -/
def still (f : Frames) : Frames := { f with frames := f.frames.map Frame.still }

variable (f : Frames)

theorem still_size : f.still.size = f.size := by simp [still, size]

theorem still_get? (scope : Nat) : f.still.get? scope = (f.get? scope).map Frame.still := by
  simp [still, get?]

theorem still_change {g h : Frame → Frame} (hg : ∀ frame, (g frame).still = h frame.still)
    (scope : Nat) : (f.change scope g).still = f.still.change scope h := by
  refine congrArg (Frames.mk · _ _) (Array.ext_getElem? fun i => ?_)
  simp only [change, still, Array.getElem?_map, Array.getElem?_modify]
  split
  · simp [hg, Function.comp_def]
  · rfl

theorem still_setNext (scope address : Nat) : (f.setNext scope address).still = f.still := by
  refine (f.still_change (g := fun frame => { frame with next := address }) (h := id)
    (fun _ => rfl) scope).trans (congrArg (Frames.mk · _ _) (Array.ext_getElem? fun i => ?_))
  simp [still, Array.getElem?_modify]

theorem still_setEarly (scope : Nat) (early : Bool) :
    (f.setEarly scope early).still = f.still.setEarly scope early :=
  f.still_change (g := fun frame => { frame with early }) (fun _ => rfl) scope

theorem still_storeDefault (scope : Nat) (name : String) (v : Value) :
    (f.storeDefault scope name v).still = f.still.storeDefault scope name v :=
  f.still_change (g := fun frame => { frame with defaults := Dict.insert name v frame.defaults })
    (fun _ => rfl) scope

theorem still_record (scope : Nat) (e : Event) : (f.record scope e).still = f.still.record scope e := by
  have h := f.still_change (g := fun frame => { frame with events := frame.events.push e })
    (h := fun frame => { frame with events := frame.events.push e }) (fun _ => rfl) scope
  exact congrArg (fun f : Frames => { f with log := f.log.push e }) h

theorem still_recordWriting (w : Writing) : (f.recordWriting w).still = f.still.recordWriting w := by
  unfold recordWriting
  change _ = if f.retained then _ else _
  split
  · exact f.still_record _ _
  · rfl

theorem still_parent (scope : Nat) :
    (f.still.get? scope).bind Frame.parent = (f.get? scope).bind Frame.parent := by
  rw [still_get?, Option.bind_map]
  rfl

theorem still_recordCompletion (c : Completion) :
    (f.recordCompletion c).still = f.still.recordCompletion c := by
  unfold recordCompletion
  change _ = if f.retained then _ else _
  rw [f.still_parent]
  split
  · dsimp only
    split
    · rw [still_change (h := fun frame => { frame with children := frame.children.push c }) _
        (fun _ => rfl), still_record]
    · exact f.still_record _ _
  · rfl

theorem still_exit (scope : Nat) : (f.exit scope).still = f.still.exit scope := by
  unfold exit
  rw [f.still_size]
  change _ = if (!f.retained && _) = true then _ else _
  split
  · simp [still]
  · rfl

theorem still_enter (parent : Option Nat) (template : String) :
    f.still.enter parent template = ((f.enter parent template).1, (f.enter parent template).2.still) := by
  have ha : (parent.bind f.still.get?).map Frame.early = (parent.bind f.get?).map Frame.early ∧
      (parent.bind f.still.get?).map (fun a => a.depth + 1) =
        (parent.bind f.get?).map fun a => a.depth + 1 := by
    cases parent with
    | none => exact ⟨rfl, rfl⟩
    | some scope =>
      simp only [Option.bind_some, still_get?, Option.map_map]
      exact ⟨rfl, rfl⟩
  unfold enter
  dsimp only
  rw [ha.1, ha.2, f.still_size]
  simp [still, Frame.still]

theorem still_isEarly (scope : Nat) : f.still.isEarly scope = f.isEarly scope := by
  unfold isEarly
  rw [still_get?, Option.map_map]
  rfl

theorem still_default? (scope : Nat) (name : String) :
    f.still.default? scope name = f.default? scope name := by
  unfold default?
  rw [still_get?, Option.bind_map]
  rfl

theorem size_change (scope : Nat) (g : Frame → Frame) : (f.change scope g).size = f.size := by
  simp [change, size]

theorem next_change {g : Frame → Frame} (hg : ∀ frame, (g frame).next = frame.next)
    (scope other : Nat) : (f.change scope g).next other = f.next other := by
  simp only [change, next, get?, Array.getElem?_modify]
  split
  · cases f.frames[other]? <;> simp [hg]
  · rfl

theorem next_setNext {scope : Nat} (h : scope < f.size) (address : Nat) :
    (f.setNext scope address).next scope = address := by
  simp only [setNext, change, next, get?, Array.getElem?_modify, if_pos]
  rw [Array.getElem?_eq_getElem h]
  rfl

theorem next_setNext_of_ne {scope other : Nat} (h : scope ≠ other) (address : Nat) :
    (f.setNext scope address).next other = f.next other := by
  simp only [setNext, change, next, get?, Array.getElem?_modify, if_neg h]

theorem next_setEarly (scope other : Nat) (early : Bool) :
    (f.setEarly scope early).next other = f.next other :=
  f.next_change (g := fun frame => { frame with early }) (fun _ => rfl) _ _

theorem next_storeDefault (scope other : Nat) (name : String) (v : Value) :
    (f.storeDefault scope name v).next other = f.next other :=
  f.next_change (g := fun frame => { frame with defaults := Dict.insert name v frame.defaults })
    (fun _ => rfl) _ _

theorem size_record (scope : Nat) (e : Event) : (f.record scope e).size = f.size := f.size_change _ _

theorem next_record (scope other : Nat) (e : Event) : (f.record scope e).next other = f.next other :=
  f.next_change (g := fun frame => { frame with events := frame.events.push e }) (fun _ => rfl) _ _

theorem size_recordWriting (w : Writing) : (f.recordWriting w).size = f.size := by
  unfold recordWriting
  split
  · exact f.size_record _ _
  · rfl

theorem next_recordWriting (w : Writing) (scope : Nat) : (f.recordWriting w).next scope = f.next scope := by
  unfold recordWriting
  split
  · exact f.next_record _ _ _
  · rfl

theorem size_recordCompletion (c : Completion) : (f.recordCompletion c).size = f.size := by
  unfold recordCompletion
  split
  · dsimp only
    split
    · rw [size_change, size_record]
    · exact f.size_record _ _
  · rfl

theorem next_recordCompletion (c : Completion) (scope : Nat) :
    (f.recordCompletion c).next scope = f.next scope := by
  unfold recordCompletion
  split
  · dsimp only
    split
    · rw [next_change, next_record]
      exact fun _ => rfl
    · exact f.next_record _ _ _
  · rfl

/-- Leaving a frame keeps those in front of it. -/
theorem exit_keeps (scope : Nat) (h : scope < f.size) :
    scope ≤ (f.exit scope).size ∧ ∀ other < scope, (f.exit scope).next other = f.next other := by
  unfold exit
  split
  · rename_i hs
    have hs : scope + 1 = f.frames.size := of_decide_eq_true (Bool.and_eq_true_iff.mp hs).2
    refine ⟨?_, fun other ho => ?_⟩
    · simp only [size, Array.size_pop]
      omega
    · simp only [next, get?, Array.getElem?_pop]
      rw [if_pos (by omega)]
  · exact ⟨Nat.le_of_lt h, fun _ _ => rfl⟩

theorem still_pathUp (n : Nat) (scope : Option Nat) : f.still.pathUp n scope = f.pathUp n scope := by
  induction n generalizing scope with
  | zero => rfl
  | succ n ih =>
    cases scope with
    | none => rfl
    | some scope =>
      rw [pathUp, pathUp, still_get?]
      cases f.get? scope with
      | none => rfl
      | some frame => exact congrArg (frame.template :: ·) (ih frame.parent)

theorem still_callPath (scope : Nat) : f.still.callPath scope = f.callPath scope := by
  rw [callPath, callPath, still_pathUp, still_size]

theorem still_lookup (name : String) (wanted : Option Nat) (as : List Activation) :
    lookupFrom f.still name wanted as = lookupFrom f name wanted as := by
  induction as generalizing wanted with
  | nil => rfl
  | cons a as ih => simp only [lookupFrom, still_default?, ih]

end Frames

namespace Machine

/-- The machine without operands and addresses. -/
def still (m : Machine) : Machine := { m with frames := m.frames.still, stack := [] }

variable {m m' : Machine}

theorem still_eq_iff : m.still = m'.still ↔ m.frames.still = m'.frames.still ∧ m.sink = m'.sink ∧
    m.cursor = m'.cursor ∧ m.workspace = m'.workspace := by
  simp [still]

theorem still_report (settings : Settings) (env : Env) (kind : Kind) (arguments causes : List String)
    (h : m.still = m'.still) :
    (m.report settings env kind arguments causes).still =
      (m'.report settings env kind arguments causes).still := by
  obtain ⟨hf, hs, hc, hw⟩ := still_eq_iff.mp h
  have hp : m.frames.callPath env.scope = m'.frames.callPath env.scope := by
    rw [← Frames.still_callPath, hf, Frames.still_callPath]
  refine still_eq_iff.mpr ⟨hf, hs, hc, ?_⟩
  simp only [report, diagnostic, hp, hw]

theorem still_changeFrames {F : Frames → Frames} (hF : ∀ f, (F f).still = F f.still)
    (h : m.still = m'.still) : (m.changeFrames F).still = (m'.changeFrames F).still := by
  obtain ⟨hf, hs, hc, hw⟩ := still_eq_iff.mp h
  refine still_eq_iff.mpr ⟨?_, hs, hc, hw⟩
  simp only [changeFrames, hF, hf]

theorem still_setNext (m : Machine) (scope address : Nat) :
    (m.changeFrames fun f => f.setNext scope address).still = m.still :=
  still_eq_iff.mpr ⟨m.frames.still_setNext _ _, rfl, rfl, rfl⟩

/-- A later state with the same operands, in which the frames that there were have the same addresses. -/
structure Keeps (m n : Machine) : Prop where
  stack : n.stack = m.stack
  size : m.frames.size ≤ n.frames.size
  next : ∀ scope < m.frames.size, n.frames.next scope = m.frames.next scope

theorem Keeps.refl (m : Machine) : m.Keeps m := ⟨rfl, Nat.le_refl _, fun _ _ => rfl⟩

end Machine

end Stencil
