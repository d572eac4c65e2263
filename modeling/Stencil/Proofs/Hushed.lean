import Stencil.Proofs.Recording
/-! Instances that run early. While the name of a template, or an expression in parentheses, is evaluated, text is
kept aside and frames record nothing but that they ran early. -/

namespace Stencil

open Rendering

/-- An event of a frame that ran early. -/
def Event.IsEarly : Event → Prop
  | .wrote _ => False
  | .completed c => c.early = true

/-- Which frame a frame lies below, and whether it runs early. -/
def Frame.standing (frame : Frame) : Option Nat × Bool := (frame.parent, frame.early)

namespace Frames

variable {f k l : Frames} {n : Nat} {new new' : List Event}

/-! ## Later frames -/

/-- Later frames, with more events in the log. Those that there were stand where they stood, and the first `n` have the
same addresses. -/
structure Since (n : Nat) (f k : Frames) (new : List Event) : Prop where
  retained : k.retained = f.retained
  size : f.size ≤ k.size
  standing : ∀ scope < f.size, (k.get? scope).map Frame.standing = (f.get? scope).map Frame.standing
  next : ∀ scope < n, k.next scope = f.next scope
  log : k.log.toList = f.log.toList ++ new

theorem isEarly_eq_standing (f : Frames) (scope : Nat) :
    f.isEarly scope = (((f.get? scope).map Frame.standing).map Prod.snd).getD false := by
  rw [isEarly, Option.map_map]
  rfl

theorem parent?_eq_standing (f : Frames) (scope : Nat) :
    f.parent? scope = ((f.get? scope).map Frame.standing).bind Prod.fst := by
  rw [parent?, Option.bind_map]
  rfl

theorem isEarly_setEarly {scope : Nat} (h : scope < f.size) (early : Bool) :
    (f.setEarly scope early).isEarly scope = early := by
  obtain ⟨frame, hframe⟩ := get?_of_lt h
  rw [isEarly, setEarly, get?_change, if_pos rfl, hframe]
  rfl

namespace Since

theorem refl (n : Nat) (f : Frames) : f.Since n f [] :=
  ⟨rfl, Nat.le_refl _, fun _ _ => rfl, fun _ _ => rfl, (List.append_nil _).symm⟩

theorem trans (h : f.Since n k new) (h' : k.Since n l new') : f.Since n l (new ++ new') where
  retained := h'.retained.trans h.retained
  size := Nat.le_trans h.size h'.size
  standing scope hs := (h'.standing scope (Nat.lt_of_lt_of_le hs h.size)).trans (h.standing scope hs)
  next scope hs := (h'.next scope hs).trans (h.next scope hs)
  log := by rw [h'.log, h.log, List.append_assoc]

theorem mono {m : Nat} (hm : m ≤ n) (h : f.Since n k new) : f.Since m k new :=
  ⟨h.retained, h.size, h.standing, fun scope hs => h.next scope (Nat.lt_of_lt_of_le hs hm), h.log⟩

theorem isEarly (h : f.Since n k new) {scope : Nat} (hs : scope < f.size) : k.isEarly scope = f.isEarly scope := by
  rw [isEarly_eq_standing, isEarly_eq_standing, h.standing scope hs]

theorem parent? (h : f.Since n k new) {scope : Nat} (hs : scope < f.size) : k.parent? scope = f.parent? scope := by
  rw [parent?_eq_standing, parent?_eq_standing, h.standing scope hs]

/-- Changes that leave a frame where it stands and leave its address. -/
theorem change {g : Frame → Frame} (hs : ∀ frame, (g frame).standing = frame.standing)
    (hn : ∀ frame, (g frame).next = frame.next) (scope : Nat) : f.Since n (f.change scope g) [] where
  retained := rfl
  size := Nat.le_of_eq (f.size_change scope g).symm
  standing other _ := by
    rw [get?_change]
    split
    · rw [Option.map_map]
      exact congrArg (Option.map · _) (funext hs)
    · rfl
  next other _ := f.next_change hn scope other
  log := (List.append_nil _).symm

theorem setNext {scope : Nat} (h : n ≤ scope) (address : Nat) : f.Since n (f.setNext scope address) [] where
  retained := rfl
  size := Nat.le_of_eq (f.size_change scope _).symm
  standing other _ := by
    rw [Frames.setNext, get?_change]
    split
    · rw [Option.map_map]
      rfl
    · rfl
  next _ ho := f.next_setNext_of_ne (Nat.ne_of_gt (Nat.lt_of_lt_of_le ho h)) address
  log := (List.append_nil _).symm

theorem storeDefault (scope : Nat) (name : String) (v : Value) : f.Since n (f.storeDefault scope name v) [] :=
  change (g := fun frame => { frame with defaults := Dict.insert name v frame.defaults }) (fun _ => rfl) (fun _ => rfl) _

theorem record (scope : Nat) (e : Event) : f.Since n (f.record scope e) [e] :=
  have h : f.Since n (f.change scope fun frame => { frame with events := frame.events.push e }) [] :=
    change (g := fun frame => { frame with events := frame.events.push e }) (fun _ => rfl) (fun _ => rfl) scope
  ⟨h.retained, h.size, h.standing, h.next, Array.toList_push⟩

theorem recordWriting (h : f.retained = true) (w : Writing) : f.Since n (f.recordWriting w) [.wrote w] := by
  rw [Frames.recordWriting, if_pos h]
  exact record _ _

theorem recordCompletion (h : f.retained = true) (c : Completion) :
    f.Since n (f.recordCompletion c) [.completed c] := by
  rw [recordCompletion_eq h]
  split
  · exact (record _ _).trans (change (g := fun frame => { frame with children := frame.children.push c })
      (fun _ => rfl) (fun _ => rfl) _)
  · exact record _ _

theorem enter (f : Frames) (parent : Option Nat) (template : String) : f.Since f.size (f.enter parent template).2 [] where
  retained := rfl
  size := Nat.le_of_lt (Nat.lt_of_lt_of_eq (Nat.lt_succ_self _) (f.size_enter _ _).symm)
  standing scope hs := by rw [get?_enter, if_neg (Nat.ne_of_lt hs)]
  next := (f.next_enter _ _).2
  log := (List.append_nil _).symm

theorem setEarly {scope : Nat} {early : Bool} (h : f.isEarly scope = early) : f.Since n (f.setEarly scope early) [] where
  retained := rfl
  size := Nat.le_of_eq (f.size_change scope _).symm
  standing other hs := by
    rw [Frames.setEarly, get?_change]
    split
    · subst ‹scope = other›
      obtain ⟨frame, hframe⟩ := get?_of_lt hs
      rw [Frames.isEarly, hframe] at h
      rw [hframe]
      exact congrArg some (Prod.ext rfl h.symm)
    · rfl
  next other _ := f.next_setEarly scope other early
  log := (List.append_nil _).symm

/-- A frame that runs early for a while stands afterwards where it stood. -/
theorem unhush {scope : Nat} (h : (f.setEarly scope true).Since n k new) :
    f.Since n (k.setEarly scope (f.isEarly scope)) new where
  retained := h.retained
  size := Nat.le_trans (Nat.le_trans (Nat.le_of_eq (f.size_change _ _).symm) h.size) (Nat.le_of_eq (k.size_change _ _).symm)
  standing other hs := by
    have hbefore := h.standing other (Nat.lt_of_lt_of_eq hs (f.size_change _ _).symm)
    rw [Frames.setEarly, get?_change] at hbefore
    rw [Frames.setEarly, get?_change]
    split
    · rename_i he
      subst he
      obtain ⟨frame, hframe⟩ := get?_of_lt hs
      rw [if_pos rfl, hframe] at hbefore
      obtain ⟨frame', hframe', he⟩ := Option.map_eq_some_iff.mp hbefore
      rw [hframe, hframe', Frames.isEarly, hframe]
      exact congrArg some (Prod.ext (Prod.mk.inj he).1 rfl)
    · rw [if_neg ‹_›] at hbefore
      exact hbefore
  next other hs := (k.next_setEarly _ _ _).trans ((h.next other hs).trans (f.next_setEarly _ _ _))
  log := h.log

end Since

/-! ## Frames that run early -/

/-- Later frames, when since then only frames have been completed that ran early. -/
def Hushed (f k : Frames) : Prop := ∃ new, f.Since f.size k new ∧ ∀ e ∈ new, e.IsEarly

namespace Hushed

theorem refl (f : Frames) : f.Hushed f := ⟨[], .refl _ f, nofun⟩

theorem since (h : f.Hushed k) (h' : k.Since f.size l new) (hnew : ∀ e ∈ new, e.IsEarly) : f.Hushed l := by
  obtain ⟨earlier, hs, he⟩ := h
  exact ⟨earlier ++ new, hs.trans h', List.forall_mem_append.mpr ⟨he, hnew⟩⟩

theorem trans (h : f.Hushed k) (h' : k.Hushed l) : f.Hushed l :=
  have ⟨_, hs, he⟩ := h'
  h.since (hs.mono (h.elim fun _ h => h.1.size)) he

theorem size (h : f.Hushed k) : f.size ≤ k.size := h.elim fun _ h => h.1.size

theorem retained (h : f.Hushed k) : k.retained = f.retained := h.elim fun _ h => h.1.retained

theorem isEarly (h : f.Hushed k) {scope : Nat} (hs : scope < f.size) : k.isEarly scope = f.isEarly scope :=
  h.elim fun _ h => h.1.isEarly hs

end Hushed

/-- What is known of frames while an instance runs early. -/
def hushing (f : Frames) : Facts := .plain Unit (fun _ _ _ => True) f.Hushed

theorem hushing_kept (settings : Settings) (env : Env) (hs : env.scope < f.size) (he : f.isEarly env.scope = true) :
    f.hushing.Kept settings env where
  toQuiet := Facts.plain_quiet (fun _ _ _ _ _ _ _ => trivial) (fun _ _ _ _ _ _ _ => trivial)
    fun _ name v h => h.trans ⟨[], .storeDefault _ name v, nofun⟩
  scratch _ _ hm := ⟨(), ⟨hm.frames, hm.stack, trivial, trivial⟩, fun _ hk => ⟨hk.frames, hk.stack, trivial, trivial⟩⟩
  setEarly k early hearly hk := by
    -- the frame runs early all the time, so it is set to what it is
    obtain rfl : early = true := hearly.elim id fun ⟨l, hl, hle⟩ => hle.symm.trans ((Hushed.isEarly hl hs).trans he)
    have hset : k.isEarly env.scope = true := (Hushed.isEarly hk hs).trans he
    exact Hushed.trans hk ⟨[], .setEarly hset, nofun⟩
  record _ _ _ hearly hk := by
    rw [Hushed.isEarly hk hs, he] at hearly
    cases hearly

end Frames

/-! ## Renders -/

/-- An instance runs early if its caller does when it is called. -/
theorem Machine.isEarly_enter {caller env : Env} {callee : Instance} {m k : Machine}
    (h : m.enter (some caller) callee = (env, k)) : k.frames.isEarly env.scope = m.frames.isEarly caller.scope := by
  cases h
  have hnew := m.frames.get?_enter (some caller.scope) callee.name m.frames.size
  rw [if_pos rfl] at hnew
  have hearly := congrArg (fun frame : Option Frame => (frame.map Frame.early).getD false) hnew
  exact hearly

/-- An instance that is called by one that runs early runs early, and so do those that it calls. -/
def hushed : Contract where
  Index := Frames
  before f caller _ m := m.frames = f ∧ f.retained = true ∧ ∃ e ∈ caller, e.scope < f.size ∧ f.isEarly e.scope = true
  during f env m := f.retained = true ∧ env.scope = f.size ∧ env.scope < m.frames.size ∧
    m.frames.isEarly env.scope = true ∧ f.Hushed m.frames
  after f m := f.Hushed m.frames

/-- What an instance calls while it runs early is called as the contract says. -/
theorem Frames.hushing_permit {f : Frames} (env : Env) (hs : env.scope < f.size) (he : f.isEarly env.scope = true)
    (hr : f.retained = true) : ∀ e callee kept, f.hushing.permit env e callee kept → hushed.permit env e callee kept := by
  intro e callee kept h
  obtain ⟨rfl, -, o, rfl⟩ := h
  refine ⟨⟨e.place, rfl⟩, fun m hm => ⟨m.frames, ⟨rfl, (Hushed.retained hm.frames).trans hr, e, rfl, ?_, ?_⟩, fun k hk => ?_⟩⟩
  · exact Nat.lt_of_lt_of_le hs (Hushed.size hm.frames)
  · exact (Hushed.isEarly hm.frames hs).trans he
  · exact Facts.plain_holds.mpr ⟨Hushed.trans hm.frames hk, trivial⟩

theorem hushed_kept (settings : Settings) : hushed.Kept settings where
  enter f caller callee m env k hb he _ := by
    obtain ⟨rfl, hr, e, hcaller, hs, hearly⟩ := hb
    cases hcaller
    have hin := (Machine.isEarly_enter he).trans hearly
    cases he
    exact ⟨hr, rfl, Nat.lt_of_lt_of_eq (Nat.lt_succ_self _) (m.frames.size_enter _ _).symm, hin, [], .enter _ _ _, nofun⟩
  refuse f env callee m hb := hb.1 ▸ .refl _
  perform f env m place instr hm := by
    obtain ⟨hr, hscope, hs, he, hf⟩ := hm
    have hkept := Frames.hushing_kept settings (env.atPlace place) hs he
    refine ((hkept.perform (o := ()) instr m (Facts.plain_holds.mpr ⟨.refl _, trivial⟩)).mono fun _ k hk => ?_).permit
      (Frames.hushing_permit (env.atPlace place) hs he (hf.retained.trans hr))
    have hk : m.frames.Hushed k.frames := (Facts.plain_holds.mp hk.2).1
    exact ⟨hr, hscope, Nat.lt_of_lt_of_le hs hk.size, (hk.isEarly hs).trans he, hf.trans hk⟩
  jump f env m address hm := by
    obtain ⟨hr, hscope, hs, he, hf⟩ := hm
    have hset : m.frames.Since f.size (m.frames.setNext env.scope address) [] := .setNext (Nat.le_of_eq hscope.symm) _
    exact ⟨hr, hscope, Nat.lt_of_lt_of_le hs hset.size, (hset.isEarly hs).trans he, hf.since hset nofun⟩
  leave f caller callee m env k l hb he hl := by
    obtain ⟨hr, hscope, hs, hearly, hf⟩ := hl
    have hretained := hf.retained.trans hr
    rw [Machine.leave, Machine.changeFrames, Frames.exit_retained _ ((l.frames.retained_recordCompletion _).trans hretained)]
    exact hf.since (.recordCompletion hretained _) (List.forall_mem_singleton.mpr hearly)

end Stencil
