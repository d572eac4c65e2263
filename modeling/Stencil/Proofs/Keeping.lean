import Stencil.Proofs.Correctness
import Stencil.Proofs.Faces
/-! How deep frames lie, and what running an instance does to the frames that are there: they stay where
they are and as deep as they are. -/

namespace Stencil

namespace Frames

/-- The number of frames above a frame. -/
def depth (f : Frames) (scope : Nat) : Nat := ((f.get? scope).map Frame.depth).getD 0

variable {f k l : Frames} {n : Nat}

theorem depth_eq_of_face? {scope : Nat} (h : k.face? scope = f.face? scope) : k.depth scope = f.depth scope := by
  have hd (f : Frames) : f.depth scope = ((f.face? scope).map Frame.depth).getD 0 := by
    rw [depth, face?, Option.map_map]
    rfl
  rw [hd, hd, h]

/-- Later frames, with all that there were, as deep as they were. The first `n` have the same addresses,
and there are no more than there were unless frames are retained. -/
structure Keeps (n : Nat) (f k : Frames) : Prop where
  retained : k.retained = f.retained
  size : f.size ≤ k.size
  tight : f.retained = false → k.size = f.size
  depth : ∀ scope < f.size, k.depth scope = f.depth scope
  next : ∀ scope < n, k.next scope = f.next scope

namespace Keeps

theorem refl (f : Frames) : f.Keeps n f := ⟨rfl, Nat.le_refl _, fun _ => rfl, fun _ _ => rfl, fun _ _ => rfl⟩

theorem trans (h : f.Keeps n k) (h' : k.Keeps n l) : f.Keeps n l where
  retained := h'.retained.trans h.retained
  size := Nat.le_trans h.size h'.size
  tight hr := (h'.tight (h.retained.trans hr)).trans (h.tight hr)
  depth scope hs := (h'.depth scope (Nat.lt_of_lt_of_le hs h.size)).trans (h.depth scope hs)
  next scope hs := (h'.next scope hs).trans (h.next scope hs)

theorem mono {m : Nat} (hm : m ≤ n) (h : f.Keeps n k) : f.Keeps m k :=
  ⟨h.retained, h.size, h.tight, h.depth, fun scope hs => h.next scope (Nat.lt_of_lt_of_le hs hm)⟩

/-- Changes that move no frame and leave its address. -/
theorem change {g : Frame → Frame} (hd : ∀ frame, (g frame).depth = frame.depth)
    (hn : ∀ frame, (g frame).next = frame.next) (scope : Nat) : f.Keeps n (f.change scope g) where
  retained := rfl
  size := Nat.le_of_eq (f.size_change scope g).symm
  tight _ := f.size_change scope g
  depth other _ := by
    simp only [Frames.depth, get?_change]
    split
    · cases f.get? other <;> simp [hd]
    · rfl
  next other _ := f.next_change hn scope other

theorem setNext {scope : Nat} (h : n ≤ scope) (address : Nat) : f.Keeps n (f.setNext scope address) where
  retained := rfl
  size := Nat.le_of_eq (f.size_change scope _).symm
  tight _ := f.size_change scope _
  depth other _ := depth_eq_of_face?
    (f.face?_change_eq (g := fun frame => { frame with next := address }) (fun _ => rfl) scope other)
  next _ ho := f.next_setNext_of_ne (Nat.ne_of_gt (Nat.lt_of_lt_of_le ho h)) address

theorem record (scope : Nat) (e : Event) : f.Keeps n (f.record scope e) :=
  have h : f.Keeps n (f.change scope fun frame => { frame with events := frame.events.push e }) :=
    change (g := fun frame => { frame with events := frame.events.push e }) (fun _ => rfl) (fun _ => rfl) scope
  ⟨h.retained, h.size, h.tight, h.depth, h.next⟩

theorem recordWriting (w : Writing) : f.Keeps n (f.recordWriting w) := by
  unfold Frames.recordWriting
  split
  · exact record _ _
  · exact refl f

theorem recordCompletion (c : Completion) : f.Keeps n (f.recordCompletion c) := by
  unfold Frames.recordCompletion
  split
  · dsimp only
    split
    · exact (record _ _).trans (change (g := fun frame => { frame with children := frame.children.push c })
        (fun _ => rfl) (fun _ => rfl) _)
    · exact record _ _
  · exact refl f

/-- What has run in a frame of its own and left it keeps the frames that were there before. -/
theorem leave {parent : Option Nat} {template : String} (h : (f.enter parent template).2.Keeps f.size k) :
    f.Keeps f.size (k.exit f.size) := by
  have hsize := f.size_enter parent template
  have hlive : f.size < k.size := Nat.lt_of_lt_of_le (by omega) h.size
  obtain ⟨hle, hnext⟩ := exit_keeps k f.size hlive
  refine ⟨(k.retained_exit _).trans h.retained, hle, fun hr => ?_, fun scope hs => ?_, fun scope hs => ?_⟩
  · have hk : k.size = f.size + 1 := (h.tight hr).trans hsize
    have hkr : k.retained = false := h.retained.trans hr
    rw [exit, if_pos (by simp [hkr, hk])]
    exact (Array.size_pop ..).trans (Nat.sub_eq_of_eq_add hk)
  · rw [depth_eq_of_face? (k.face?_exit hs), h.depth scope (by omega),
      depth_eq_of_face? (f.face?_enter_of_lt parent template hs)]
  · rw [hnext scope hs, h.next scope hs, (f.next_enter parent template).2 scope hs]

end Keeps

/-- A new frame is one deeper than the one it is opened below. -/
theorem depth_enter (f : Frames) (parent : Option Nat) (template : String) (h : ∀ scope ∈ parent, scope < f.size) :
    (f.enter parent template).2.depth f.size = (parent.map fun scope => f.depth scope + 1).getD 0 := by
  cases parent with
  | none => simp [Frames.enter, Frames.depth, get?, size]
  | some scope =>
    have hs : scope < f.frames.size := h scope rfl
    simp [Frames.enter, Frames.depth, get?, size, Array.getElem?_eq_getElem hs]

end Frames

end Stencil
