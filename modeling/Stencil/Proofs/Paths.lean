import Stencil.Proofs.Faces
/-! Call paths. A path is found by going from a frame to the one that it was opened below, and so on. That ends, as
each frame lies below one that was opened before. -/

namespace Stencil

namespace Frames

variable {f : Frames} {scope : Nat} {frame : Frame}

/-! ## Frames that there are -/

theorem lt_size_of_get? (h : f.get? scope = some frame) : scope < f.size := (Array.getElem?_eq_some_iff.mp h).1

theorem get?_of_lt (h : scope < f.size) : ∃ frame, f.get? scope = some frame := ⟨_, Array.getElem?_eq_getElem h⟩

theorem get?_eq_none (h : f.size ≤ scope) : f.get? scope = none := Array.getElem?_eq_none h

theorem get?_enter (f : Frames) (parent : Option Nat) (template : String) (scope : Nat) :
    (f.enter parent template).2.get? scope = if scope = f.size then some
      { parent, template
        early := ((parent.bind f.get?).map Frame.early).getD false
        depth := ((parent.bind f.get?).map fun a => a.depth + 1).getD 0 } else f.get? scope := by
  simp only [enter, get?, size, Array.getElem?_push]
  rfl

/-- The frames that there are when one is left were there before, and it goes only if it was the last. -/
theorem get?_of_exit {other : Nat} (h : (f.exit other).get? scope = some frame) :
    f.get? scope = some frame ∧ ∀ p < scope, (f.exit other).get? p = f.get? p := by
  unfold exit at h ⊢
  split
  · rename_i hlast
    rw [if_pos hlast] at h
    have hlt := lt_size_of_get? h
    have hsize : scope < f.frames.size - 1 := Nat.lt_of_lt_of_eq hlt Array.size_pop
    have hpop (p : Nat) (hp : p < f.frames.size - 1) : f.frames.pop[p]? = f.frames[p]? := by
      rw [Array.getElem?_pop, if_pos hp]
    exact ⟨(hpop scope hsize).symm.trans h, fun p hp => hpop p (Nat.lt_trans hp hsize)⟩
  · rename_i hlast
    rw [if_neg hlast] at h
    exact ⟨h, fun _ _ => rfl⟩

/-! ## The way up -/

/-- Going up from a frame, or from none, comes to an end and leads through templates. It ends where a frame has none
above it, or where there is no such frame. -/
inductive Climbs (f : Frames) : Option Nat → List String → Prop where
  | top : Climbs f none []
  | gone {start} (h : f.get? start = none) : Climbs f (some start) []
  | up {start x path} (h : f.get? start = some x) (above : Climbs f x.parent path) :
      Climbs f (some start) (x.template :: path)

/-- There is one way up. -/
theorem Climbs.unique {start : Option Nat} {path path' : List String} (h : f.Climbs start path)
    (h' : f.Climbs start path') : path = path' := by
  induction h generalizing path' with
  | top => cases h'; rfl
  | gone h =>
    cases h' with
    | gone => rfl
    | up hf => cases h.symm.trans hf
  | up hf _ ih =>
    cases h' with
    | gone h => cases h.symm.trans hf
    | up hf' above =>
      cases hf.symm.trans hf'
      rw [ih above]

theorem pathUp_succ (hf : f.get? scope = some frame) (n : Nat) :
    f.pathUp (n + 1) (some scope) = frame.template :: f.pathUp n frame.parent := by
  rw [pathUp, hf]

theorem pathUp_none (f : Frames) (n : Nat) : f.pathUp n none = [] := by
  cases n <;> rfl

theorem pathUp_gone (h : f.get? scope = none) (n : Nat) : f.pathUp n (some scope) = [] := by
  cases n with
  | zero => rfl
  | succ n => rw [pathUp, h]

/-! ## Frames below earlier ones -/

/-- Each frame is the outermost one of its chain, or lies one deeper than a frame that was opened before. -/
structure Founded (f : Frames) : Prop where
  outermost : ∀ scope frame, f.get? scope = some frame → frame.parent = none → frame.depth = 0
  below : ∀ scope frame p, f.get? scope = some frame → frame.parent = some p →
    p < scope ∧ ∃ above, f.get? p = some above ∧ frame.depth = above.depth + 1

namespace Founded

/-- The way up from a frame ends at the outermost one, and has as many steps as the frame lies deep. -/
theorem climbs (h : f.Founded) {n : Nat} (hf : f.get? scope = some frame) (hn : scope < n) :
    f.Climbs (some scope) (f.pathUp n (some scope)) ∧ (f.pathUp n (some scope)).length = frame.depth + 1 := by
  induction scope using Nat.strongRecOn generalizing n frame with
  | ind scope ih =>
    obtain ⟨n, rfl⟩ := Nat.exists_eq_add_one_of_ne_zero (Nat.ne_zero_of_lt hn)
    rw [pathUp_succ hf, List.length_cons]
    cases hp : frame.parent with
    | none =>
      rw [pathUp_none, h.outermost scope frame hf hp]
      exact ⟨.up hf (hp ▸ .top), rfl⟩
    | some p =>
      obtain ⟨hlt, above, habove, hdepth⟩ := h.below scope frame p hf hp
      obtain ⟨hclimbs, hlength⟩ := ih p hlt habove (n := n) (by omega)
      exact ⟨.up hf (hp ▸ hclimbs), by rw [hlength, hdepth]⟩

/-- The call path of a frame is that of the frame above it with one more template at its end. -/
theorem callPath_eq (h : f.Founded) (hf : f.get? scope = some frame) :
    f.callPath scope = (frame.parent.map f.callPath).getD [] ++ [frame.template] ∧
      (f.callPath scope).length = frame.depth + 1 := by
  have hlt := lt_size_of_get? hf
  obtain ⟨hclimbs, hlength⟩ := h.climbs hf hlt
  refine ⟨?_, by rw [callPath, List.length_reverse, hlength]⟩
  rw [callPath, hclimbs.unique (h.climbs hf (Nat.lt_succ_self _)).1, pathUp_succ hf, List.reverse_cons]
  cases hp : frame.parent with
  | none => rw [pathUp_none]; rfl
  | some p =>
    obtain ⟨hps, above, habove, -⟩ := h.below scope frame p hf hp
    rw [(h.climbs habove hps).1.unique (h.climbs habove (lt_size_of_get? habove)).1]
    rfl

/-- Opening a frame below none, or below one that is there, keeps frames founded. -/
theorem enter (h : f.Founded) {parent : Option Nat} (hp : ∀ p ∈ parent, p < f.size) (template : String) :
    (f.enter parent template).2.Founded where
  outermost scope frame hf hroot := by
    rw [get?_enter] at hf
    split at hf
    · cases hf
      rw [show parent = none from hroot]
      rfl
    · exact h.outermost scope frame hf hroot
  below scope frame p hf hparent := by
    rw [get?_enter] at hf
    split at hf
    · rename_i hs
      cases hf
      obtain rfl : parent = some p := hparent
      have hlt := hp p rfl
      obtain ⟨above, habove⟩ := get?_of_lt hlt
      refine ⟨hs ▸ hlt, above, ?_, by simp [habove]⟩
      rw [get?_enter, if_neg (Nat.ne_of_lt hlt), habove]
    · obtain ⟨hlt, above, habove, hdepth⟩ := h.below scope frame p hf hparent
      refine ⟨hlt, above, ?_, hdepth⟩
      rw [get?_enter, if_neg (Nat.ne_of_lt (lt_size_of_get? habove)), habove]

/-- Leaving any frame, whether it is there or not, keeps frames founded: only the last one goes, and none is below it. -/
theorem exit (h : f.Founded) (scope : Nat) : (f.exit scope).Founded where
  outermost other frame hf := h.outermost other frame (get?_of_exit hf).1
  below other frame p hf hp := by
    obtain ⟨hf, hkept⟩ := get?_of_exit hf
    obtain ⟨hlt, above, habove, hdepth⟩ := h.below other frame p hf hp
    exact ⟨hlt, above, (hkept p hlt).trans habove, hdepth⟩

end Founded

theorem founded_empty (retained : Bool) : (empty retained).Founded := ⟨nofun, nofun⟩

/-! ## Histories -/

/-- Frames are opened and left by the numbers that were given to them, which may be out of date. -/
inductive Move where
  | enter (parent : Option Nat) (template : String)
  | exit (scope : Nat)

def move (f : Frames) : Move → Frames
  | .enter parent template => (f.enter parent template).2
  | .exit scope => f.exit scope

/-- The frame that a new one is opened below is there. -/
def Holds (f : Frames) : Move → Prop
  | .enter parent _ => ∀ p ∈ parent, p < f.size
  | .exit _ => True

instance (f : Frames) : (m : Move) → Decidable (f.Holds m)
  | .enter parent _ => inferInstanceAs (Decidable (∀ p ∈ parent, p < f.size))
  | .exit _ => inferInstanceAs (Decidable True)

/-- Some frames become others by moves in turn, when frames are only opened below frames that are there. -/
inductive Becomes (f : Frames) : List Move → Frames → Prop where
  | start : Becomes f [] f
  | move {moves g} {m : Move} (h : Becomes f moves g) (holds : g.Holds m) : Becomes f (moves ++ [m]) (g.move m)

theorem Becomes.founded {g : Frames} {moves : List Move} (h : f.Becomes moves g) (hf : f.Founded) : g.Founded := by
  induction h with
  | start => exact hf
  | @move _ _ m _ holds ih =>
    cases m with
    | enter parent template => exact ih.enter holds template
    | exit scope => exact ih.exit scope

/-- A frame that is opened below a frame of its own number, which was left before, is its own caller: there is no end to
going up from it. -/
theorem enter_below_itself (f : Frames) (template : String) (path : List String) :
    ¬ (f.enter (some f.size) template).2.Climbs (some f.size) path := by
  have hnew : ((f.enter (some f.size) template).2.get? f.size).map Frame.parent = some (some f.size) := by
    rw [get?_enter, if_pos rfl]
    rfl
  have hnever {start : Option Nat} {path : List String} (h : (f.enter (some f.size) template).2.Climbs start path) :
      start ≠ some f.size := by
    induction h with
    | top => nofun
    | gone h =>
      intro hs
      cases hs
      rw [h] at hnew
      cases hnew
    | up h _ ih =>
      intro hs
      cases hs
      rw [h] at hnew
      exact ih (Option.some.inj hnew)
  exact fun h => hnever h rfl

end Frames

/-- Call paths are well founded. Whatever frames are opened and left, if none is opened below one that is not there, each
frame that is there lies one deeper than the frame above it, which has a smaller number; going up from any number ends;
and the call path of a frame leads from the outermost one down to it, with as many templates as it lies deep and one. -/
theorem call_paths_founded {retained : Bool} {moves : List Frames.Move} {f : Frames}
    (h : (Frames.empty retained).Becomes moves f) :
    (∀ scope frame p, f.get? scope = some frame → frame.parent = some p →
      p < scope ∧ ∃ above, f.get? p = some above ∧ frame.depth = above.depth + 1) ∧
    (∀ scope, f.Climbs (some scope) (f.callPath scope).reverse) ∧
    ∀ scope frame, f.get? scope = some frame →
      f.callPath scope = (frame.parent.map f.callPath).getD [] ++ [frame.template] ∧
        (f.callPath scope).length = frame.depth + 1 := by
  have hf := h.founded (Frames.founded_empty retained)
  refine ⟨hf.below, fun scope => ?_, fun scope frame => hf.callPath_eq⟩
  rw [Frames.callPath, List.reverse_reverse]
  cases hget : f.get? scope with
  | none =>
    rw [Frames.pathUp_gone hget]
    exact .gone hget
  | some frame => exact (hf.climbs hget (Frames.lt_size_of_get? hget)).1

/-- In a history where the number of a frame that was left is given to another one, and where a frame that is no longer
the last one is left. -/
theorem call_paths_founded_reused : ∃ moves f, (Frames.empty false).Becomes moves f ∧
    f.callPath 2 = ["page", "body", "row"] ∧ f.Climbs (some 2) ["row", "body", "page"] := by
  have entered := (Frames.Becomes.start (f := .empty false)).move (m := .enter none "page") (by decide)
  have left := (entered.move (m := .enter (some 0) "head") (by decide)).move (m := .exit 1) (by decide)
  have reused := (left.move (m := .enter (some 0) "body") (by decide)).move (m := .exit 0) (by decide)
  have row := reused.move (m := .enter (some 1) "row") (by decide)
  exact ⟨_, _, row, rfl, (call_paths_founded row).2.1 2⟩

end Stencil
